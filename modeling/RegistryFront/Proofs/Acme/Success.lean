import RegistryFront.Proofs.Acme.Preparation
import RegistryFront.Proofs.Pem.Leading
import RegistryFront.Proofs.Store.Due

/-!
# When all goes well

What a step leads to when the steps inside of it do not fail, up to a whole call that issues a
certificate.
-/

namespace RegistryFront.Acme

open Keys (CurveKey Entropy)

variable {σ α β : Type} {outside : Outside σ}

theorem Run.on_bind_of_ok {run : Run σ α} {next : α → Run σ β} {state after : State σ} {value : α}
    (h : run.on state = (.ok value, after)) : (run >>= next).on state = (next value).on after := by
  rw [on_bind, h]

theorem Polling.poll_of_decided {limit : Limit} {once : β → Run σ (Attempt β α)} {first : β}
    {state after : State σ} {value : α}
    (h : (once first).on state = (.ok (.decided value), after)) :
    (poll outside limit once first).on state = (.ok value, after) := by
  rw [poll, Run.on_of, pollFrom, h]

/-! ## Keys -/

def State.nextKey (state : State σ) : CurveKey × Entropy := CurveKey.generate .p256 state.entropy

theorem Run.draw_bind_on (next : Entropy → Run σ α) (state : State σ) :
    (Run.draw >>= next).on state = (next state.entropy).on state.drawn := by
  rw [on_bind, draw, on_of]
  rfl

theorem Run.onDrive_of_ok {ε : Type} {wrap : ε → IssueError}
    {step : Files.Drive → Except ε α × Files.Drive} {state : State σ} {value : α}
    {drive : Files.Drive}
    (h : step state.drive = (.ok value, drive)) :
    (Run.onDrive wrap step).on state = (.ok value, { state with drive := drive }) := by
  rw [onDrive, on_of, h]
  rfl

namespace Client

variable {client : Client} {state : State σ}

/-! ## The account -/

theorem makeAccount_of_ok {directed registered : State σ} {endpoints : Endpoints} {id : String}
    {drive : Files.Drive}
    (hdirectory : (Run.ask outside (.directory client.settings.directoryUrl)).on state =
      (.ok endpoints, directed))
    (haccount : (Run.ask outside (.newAccount endpoints directed.nextKey.1 client.contact)).on
      directed.drawn = (.ok id, registered))
    (hsave : client.store.saveCredentials registered.drive client.settings.directoryUrl
      (Credentials.ofAccount ⟨id, directed.nextKey.1, endpoints⟩
        client.settings.directoryUrl).write =
        (.ok (), drive)) :
    (client.makeAccount outside).on state =
      (.ok ⟨id, directed.nextKey.1, endpoints⟩, { registered with drive := drive }) := by
  rw [makeAccount]
  refine (Run.on_bind_of_ok hdirectory).trans ((Run.draw_bind_on _ _).trans ?_)
  unfold State.nextKey at haccount hsave ⊢
  generalize CurveKey.generate .p256 directed.entropy = made at haccount hsave ⊢
  obtain ⟨key, rest⟩ := made
  refine (Run.on_bind_of_ok haccount).trans ?_
  exact Run.on_bind_of_ok (Run.onDrive_of_ok hsave)

theorem obtainAccount_of_made {made : State σ} {account : Account} (hnone : state.account = none)
    (hstore : client.store.loadCredentials state.drive.disk client.settings.directoryUrl = .ok none)
    (hmade : (client.makeAccount outside).on state = (.ok account, made)) :
    (client.obtainAccount outside).on state =
      (.ok account, { made with account := some account }) := by
  have hload : client.loadCredentials.on state = (.ok none, state) := by
    rw [loadCredentials, Run.fromState, Run.on_of, hstore]
    rfl
  have hfound : (client.loadOrMakeAccount outside).on state = (.ok account, made) :=
    (Run.on_bind_of_ok hload).trans hmade
  rw [obtainAccount, Run.on_bind, Run.fromState, Run.on_of]
  dsimp only
  rw [hnone]
  exact Run.on_bind_of_ok hfound

/-! ## The certificate -/

theorem makeRequest_of_ok {names : List X509.AlternativeName} {csr : List UInt8}
    (hnames : client.domains.mapM X509.AlternativeName.ofText = .ok names)
    (hcsr : X509.request names (.curve state.nextKey.1) state.nextKey.2 = .ok csr) :
    client.makeRequest.on state = (.ok (.curve state.nextKey.1, csr), state.drawn) := by
  rw [makeRequest, Run.draw_bind_on]
  unfold State.nextKey at hcsr ⊢
  generalize CurveKey.generate .p256 state.entropy = made at hcsr ⊢
  obtain ⟨key, rest⟩ := made
  dsimp only at hcsr ⊢
  rw [hnames]
  dsimp only
  rw [hcsr]
  rfl

theorem complete_of_ok {order : Order} {ready final : OrderState}
    {requested finalized fetched : State σ}
    {key : Keys.PrivateKey} {csr : List UInt8} {chainPem : String} {certificate : StoredCertificate}
    {drive : Files.Drive} (hrequest : client.makeRequest.on state = (.ok (key, csr), requested))
    (hfinal : (Run.ask outside (.finalize order.account ready.finalizeUrl csr)).on requested =
      (.ok final, finalized))
    (hchain : (order.pollChain outside final).on finalized = (.ok chainPem, fetched))
    (hcertificate : client.certificateOf chainPem key fetched.wall = .ok certificate)
    (hsave : client.store.save fetched.drive client.primaryDomain certificate = (.ok (), drive)) :
    (client.complete outside order ready).on state =
      (.ok certificate, { fetched with drive := drive }) := by
  have hread :
      (Run.fromState fun state => client.certificateOf chainPem key state.wall).on fetched =
      (.ok certificate, fetched) := by
    rw [Run.fromState, Run.on_of, hcertificate]
  rw [complete]
  refine (Run.on_bind_of_ok hrequest).trans ((Run.on_bind_of_ok hfinal).trans ?_)
  refine (Run.on_bind_of_ok hchain).trans ((Run.on_bind_of_ok hread).trans ?_)
  exact Run.on_bind_of_ok (Run.onDrive_of_ok hsave)

theorem issue_of_ok {known ordered validated after : State σ} {account : Account} {order : Order}
    {ready : OrderState} {certificate : StoredCertificate}
    (haccount :
      (client.obtainAccount outside).on { state with posted := [] } = (.ok account, known))
    (horder : (client.newOrder outside account).on known = (.ok order, ordered))
    (hready : (order.validate outside client.ports).on ordered = (.ok ready, validated))
    (hcomplete : (client.complete outside order ready).on validated.withdrawn =
      (.ok certificate, after)) :
    (client.issue outside).on state = (.ok certificate, after) := by
  have hvalidated : (Run.always (order.validate outside client.ports) State.withdrawn).on ordered =
      (.ok ready, validated.withdrawn) := by
    rw [Run.always, Run.on_of, hready]
  have hbegun : (Run.change fun state : State σ => { state with posted := [] }).on state =
      (.ok (), { state with posted := [] }) := rfl
  rw [issue]
  refine (Run.on_bind_of_ok hbegun).trans ((Run.on_bind_of_ok haccount).trans ?_)
  exact (Run.on_bind_of_ok horder).trans ((Run.on_bind_of_ok hvalidated).trans hcomplete)

end Client

/-! ## A first certificate -/

namespace FirstCertificate

/-- A certificate for `d` up to 2049, signed with its own key. -/
def leaf : Bytes := [
    0x30, 0x81, 0xd6, 0x30, 0x81, 0x89, 0xa0, 0x03, 0x02, 0x01, 0x02, 0x02, 0x01, 0x01, 0x30, 0x05,
    0x06, 0x03, 0x2b, 0x65, 0x70, 0x30, 0x0c, 0x31, 0x0a, 0x30, 0x08, 0x06, 0x03, 0x55, 0x04, 0x03,
    0x0c, 0x01, 0x64, 0x30, 0x1e, 0x17, 0x0d, 0x37, 0x30, 0x30, 0x31, 0x30, 0x31, 0x30, 0x30, 0x30,
    0x30, 0x30, 0x30, 0x5a, 0x17, 0x0d, 0x34, 0x39, 0x30, 0x31, 0x30, 0x31, 0x30, 0x30, 0x30, 0x30,
    0x30, 0x30, 0x5a, 0x30, 0x0c, 0x31, 0x0a, 0x30, 0x08, 0x06, 0x03, 0x55, 0x04, 0x03, 0x0c, 0x01,
    0x64, 0x30, 0x2a, 0x30, 0x05, 0x06, 0x03, 0x2b, 0x65, 0x70, 0x03, 0x21, 0x00, 0x8a, 0x88, 0xe3,
    0xdd, 0x74, 0x09, 0xf1, 0x95, 0xfd, 0x52, 0xdb, 0x2d, 0x3c, 0xba, 0x5d, 0x72, 0xca, 0x67, 0x09,
    0xbf, 0x1d, 0x94, 0x12, 0x1b, 0xf3, 0x74, 0x88, 0x01, 0xb4, 0x0f, 0x6f, 0x5c, 0xa3, 0x10, 0x30,
    0x0e, 0x30, 0x0c, 0x06, 0x03, 0x55, 0x1d, 0x11, 0x04, 0x05, 0x30, 0x03, 0x82, 0x01, 0x64, 0x30,
    0x05, 0x06, 0x03, 0x2b, 0x65, 0x70, 0x03, 0x41, 0x00, 0xa1, 0x7b, 0xdb, 0xf3, 0xad, 0x66, 0x86,
    0xad, 0x36, 0xaa, 0x8f, 0xc7, 0x09, 0xe1, 0x3e, 0x75, 0xd7, 0x4c, 0x46, 0x16, 0x94, 0x0f, 0x5b,
    0x9e, 0xb1, 0xa5, 0xf0, 0xa8, 0x6c, 0x97, 0x57, 0x13, 0x69, 0x4a, 0x0f, 0x86, 0xdc, 0xa3, 0x0a,
    0x0f, 0x64, 0xae, 0x44, 0xc7, 0x1c, 0x27, 0x96, 0xfc, 0x79, 0x9d, 0x88, 0xcc, 0x42, 0xad, 0x94,
    0xb9, 0xf9, 0x8a, 0x53, 0x73, 0x35, 0xb2, 0xe0, 0x00]

def chainPem : String := Pem.writeText .certificate leaf

def orderState (status : OrderStatus) : OrderState := ⟨status, [], none, "/finalize", some "/chain"⟩

def endpoints : Endpoints := ⟨"/nonce", "/account", "/order"⟩

def answer : (request : Request) → request.Answer
  | .directory _ => endpoints
  | .newAccount .. => "/account/1"
  | .newOrder .. => ("/order/1", orderState .ready)
  | .authorization .. => ⟨"d", .valid, []⟩
  | .challengeReady .. => ()
  | .orderState .. => orderState .ready
  | .finalize .. => orderState .valid
  | .certificate .. => chainPem

def willing : Outside Unit where
  ask request _ _ := (⟨.ok (answer request), 0, .epoch⟩, ())
  bind _ _ _ := (.bound, ())
  sleep _ _ := (.epoch, ())

def settings : Settings (List X509.Anchor) where
  email := none
  directoryUrl? := some "https://ca.example/directory"
  httpPort? := none
  tlsAlpnPort := Settings.defaultTlsAlpnPort
  trustedRoots := none
  storagePath := some "acme"

theorem domains_ne_nil : ["d"] ≠ [] := List.cons_ne_nil _ _

def client : Client :=
  ⟨settings, ["d"], Store.acme, Client.defaultRenewBeforeDays, domains_ne_nil⟩

def begun (entropy : Entropy) : State Unit :=
  .start ⟨(), 0, .epoch, entropy, []⟩ (.ofDisk (Store.openAcme []))

def asked (state : State Unit) (request : Request) : State Unit :=
  { state with
    wall := .epoch
    exchanges := state.exchanges ++ [⟨request, state.exposure, .ok (answer request)⟩] }

theorem askOr_on (wrap : ExchangeError → IssueError) (request : Request) (state : State Unit) :
    (Run.askOr wrap willing request).on state = (.ok (answer request), asked state request) := rfl

/-! ### The exchanges -/

def directed (entropy : Entropy) : State Unit :=
  asked (begun entropy) (.directory client.settings.directoryUrl)

def account (entropy : Entropy) : Account := ⟨"/account/1", (directed entropy).nextKey.1, endpoints⟩

def order (entropy : Entropy) : Order := ⟨account entropy, "/order/1", orderState .ready⟩

def accountText (entropy : Entropy) : String :=
  (Credentials.ofAccount (account entropy) client.settings.directoryUrl).write

def registered (entropy : Entropy) : State Unit :=
  { asked (directed entropy).drawn
      (.newAccount endpoints (directed entropy).nextKey.1 client.contact) with
    drive := .ofDisk (Store.openAcme [Store.accountEntry (accountText entropy)]) }

variable (entropy : Entropy)

theorem makeAccount_on :
    (client.makeAccount willing).on (begun entropy) =
      (.ok (account entropy), registered entropy) := by
  have hdirectory : (Run.ask willing (.directory client.settings.directoryUrl)).on (begun entropy) =
      (.ok endpoints, directed entropy) := askOr_on ..
  have haccount := askOr_on .exchange
    (.newAccount endpoints (directed entropy).nextKey.1 client.contact) (directed entropy).drawn
  exact Client.makeAccount_of_ok hdirectory haccount (Store.saveCredentials_openAcme _)

theorem obtainAccount_on :
    (client.obtainAccount willing).on (begun entropy) =
      (.ok (account entropy), { registered entropy with account := some (account entropy) }) :=
  Client.obtainAccount_of_made rfl Store.loadCredentials_openAcme (makeAccount_on entropy)

theorem validate_on (ports : Ports) (state : State Unit) :
    ((order entropy).validate willing ports).on state =
      (.ok (orderState .ready), asked state (.orderState (account entropy) "/order/1")) := by
  have hnone : ((order entropy).authorizations willing []).on state = (.ok [], state) := rfl
  have hprepared : ((order entropy).prepareAll willing ports []).on state = (.ok [], state) := rfl
  have hannounced : ((order entropy).announce willing []).on state = (.ok (), state) := rfl
  refine (Run.on_bind_of_ok hnone).trans ((Run.on_bind_of_ok hprepared).trans ?_)
  exact (Run.on_bind_of_ok hannounced).trans (Polling.poll_of_decided rfl)

theorem pollChain_on (state : State Unit) :
    ((order entropy).pollChain willing (orderState .valid)).on state =
      (.ok chainPem, asked state (.certificate (account entropy) "/chain")) := by
  have hlatest : ((order entropy).latestState willing (orderState .valid)).on state =
      (.ok (orderState .valid), state) := rfl
  have hfetch := askOr_on .exchange (.certificate (account entropy) "/chain") state
  refine Polling.poll_of_decided ((Run.on_bind_of_ok hlatest).trans ?_)
  dsimp only [orderState]
  rw [map_eq_pure_bind]
  exact Run.on_bind_of_ok hfetch

/-! ### The certificate -/

def ordered : State Unit :=
  asked { registered entropy with account := some (account entropy) }
    (.newOrder (account entropy) ["d"])

def ready : State Unit :=
  (asked (ordered entropy) (.orderState (account entropy) "/order/1")).withdrawn

def expiry : Time.Instant := (Time.Instant.ofUnix? 2493072000 0).getD .epoch

theorem lastSecond?_leaf : X509.lastSecond? leaf = some 2493072000 := by decide +kernel

theorem expiryOf_of_leading {text : String} (h : Pem.leading text = .ok leaf) :
    expiryOf text = .ok expiry := by
  rw [expiryOf, h]
  simp only [lastSecond?_leaf]
  rfl

theorem expiryOf_chainPem : expiryOf chainPem = .ok expiry :=
  expiryOf_of_leading (Pem.leading_writeText leaf)

def record : Store.Record := ⟨expiry, .epoch, ["d"], some "https://ca.example/directory"⟩

def certificate : StoredCertificate :=
  ⟨chainPem, Pem.writeText .privateKey (Keys.PrivateKey.curve (ready entropy).nextKey.1).write,
    record⟩

theorem read_record : Store.Record.read record.write = .ok record :=
  Store.ok_of_toOption (by decide +kernel)

theorem fresh_record : record.Fresh .epoch ["d"] Client.defaultRenewBeforeDays :=
  ⟨rfl, _, rfl, rfl⟩

theorem issue_on {csr : List UInt8}
    (hcsr : X509.request [.dns "d"] (.curve (ready entropy).nextKey.1) (ready entropy).nextKey.2 =
      .ok csr) :
    ∃ after, (client.issue willing).on (begun entropy) = (.ok (certificate entropy), after) ∧
      after.wall = .epoch := by
  obtain ⟨drive, hdrive⟩ := Store.save_openAcme (accountText entropy) (certificate entropy)
  have hnames : client.domains.mapM X509.AlternativeName.ofText = .ok [.dns "d"] := by decide
  have hrequest := Client.makeRequest_of_ok hnames hcsr
  have hfinal :=
    askOr_on .exchange (.finalize (account entropy) "/finalize" csr) (ready entropy).drawn
  have hchain := pollChain_on entropy
    (asked (ready entropy).drawn (.finalize (account entropy) "/finalize" csr))
  have hcertificate : client.certificateOf chainPem (.curve (ready entropy).nextKey.1) .epoch =
      .ok (certificate entropy) := by
    rw [Client.certificateOf, expiryOf_chainPem]
    rfl
  have horder : (client.newOrder willing (account entropy)).on
      { registered entropy with account := some (account entropy) } =
        (.ok (order entropy), ordered entropy) :=
    Run.on_bind_of_ok (askOr_on _ (.newOrder (account entropy) ["d"]) _)
  exact ⟨_, Client.issue_of_ok (obtainAccount_on entropy) horder
    (validate_on entropy client.ports (ordered entropy))
    (Client.complete_of_ok hrequest hfinal hchain hcertificate hdrive), rfl⟩

end FirstCertificate

end RegistryFront.Acme
