import RegistryFront.Acme.Credentials
import RegistryFront.Acme.IssueError
import RegistryFront.Acme.Order
import RegistryFront.Acme.Settings
import RegistryFront.Pem.Leading
import RegistryFront.Pem.Writer
import RegistryFront.Trust.Roots
import RegistryFront.X509.Expiry

/-!
# Clients

A client obtains the certificate for one list of domains and keeps it in a store, under the first
domain.  The account is looked up in the store when it is first needed, and made when there is none.
-/

namespace RegistryFront.Acme

open Files (Drive)
open X509 (Anchor)

/-- A chain runs out with its first certificate. -/
def expiryOf (chainPem : String) : Except IssueError Time.Instant :=
  match Pem.leading chainPem with
  | .error fault => .error (.invalidCertificate ("invalid PEM: Parsing Error: " ++ fault.name))
  | .ok der =>
      match X509.lastSecond? der with
      | none => .error (.invalidCertificate "invalid X.509: Parsing Error: InvalidCertificate")
      | some second =>
          match Time.Instant.ofUnix? second 0 with
          | some expiry => .ok expiry
          | none => .error (.invalidCertificate "expiry out of range")

structure Client where
  settings : Settings (List Anchor)
  domains : List String
  store : Store
  renewBeforeDays : Nat
  domains_ne_nil : domains ≠ []

namespace Client

def defaultRenewBeforeDays : Nat := 30

def make (settings : Settings (List Anchor)) (user : UserDirectories) (domains : List String)
    (renewBeforeDays : Nat) (drive : Drive) : Except IssueError Client × Drive :=
  if h : domains = [] then (.error (.orderCreation "No domains configured"), drive)
  else
    match Store.openAt (settings.storageDirectory user) drive with
    | (.ok store, drive) => (.ok ⟨settings, domains, store, renewBeforeDays, h⟩, drive)
    | (.error cause, drive) => (.error (.store cause), drive)

variable (client : Client)

def primaryDomain : String := client.domains.head client.domains_ne_nil

def ports : Ports := ⟨client.settings.httpPort, client.settings.tlsAlpnPort⟩

def exchangeRoots (system bundled : List Anchor) : List Anchor :=
  client.settings.trustedRoots.getD (Trust.defaultRoots system bundled)

def describe (hasAccount : Bool) : String :=
  "AcmeClient \x7b directory: " ++ Text.quoted client.settings.directoryUrl ++
    ", domains: [" ++ ", ".intercalate (client.domains.map Text.quoted) ++
    "], renew_before_days: " ++ toString client.renewBeforeDays ++
    ", has_account: " ++ toString hasAccount ++ " \x7d"

variable {σ : Type} (outside : Outside σ)

/-! ## The store -/

def isDue : Run σ Bool :=
  .fromState fun state =>
    (client.store.isDue state.drive.disk state.wall client.primaryDomain client.domains
      client.renewBeforeDays).mapError .ofDue

def loadValid : Run σ (Option StoredCertificate) := do
  if ← client.isDue then pure none
  else
    .fromState fun state =>
      (client.store.load state.drive.disk client.primaryDomain).mapError .store

def save (certificate : StoredCertificate) : Run σ Unit :=
  .onDrive .store fun drive => client.store.save drive client.primaryDomain certificate

/-! ## The account -/

def contact : List String := (client.settings.email.map ("mailto:" ++ ·)).toList

def loadCredentials : Run σ (Option String) :=
  .fromState fun state =>
    (client.store.loadCredentials state.drive.disk client.settings.directoryUrl).mapError .store

def endpointsFor (credentials : Credentials) : Run σ Endpoints :=
  match credentials.directory, credentials.endpoints with
  | some url, _ => .ask outside (.directory url)
  | none, some endpoints => pure endpoints
  | none, none => throw (.exchange (.missing "no server URLs found"))

def restoreAccount (text : String) : Run σ Account := do
  match Credentials.read text with
  | .error cause => throw (.serialization cause)
  | .ok credentials =>
      match credentials.key with
      | .error cause => throw (.exchange cause)
      | .ok key => do
          let endpoints ← endpointsFor outside credentials
          pure ⟨credentials.id, key, endpoints⟩

def makeAccount : Run σ Account := do
  let url := client.settings.directoryUrl
  let endpoints ← .ask outside (.directory url)
  let entropy ← .draw
  let (key, _) := Keys.CurveKey.generate .p256 entropy
  let id ← .ask outside (.newAccount endpoints key client.contact)
  let account : Account := ⟨id, key, endpoints⟩
  .onDrive .store fun drive =>
    client.store.saveCredentials drive url (Credentials.ofAccount account url).write
  pure account

def loadOrMakeAccount : Run σ Account := do
  match ← client.loadCredentials with
  | some text => restoreAccount outside text
  | none => client.makeAccount outside

def obtainAccount : Run σ Account := do
  match ← .fromState fun state => .ok state.account with
  | some account => pure account
  | none => do
      let account ← client.loadOrMakeAccount outside
      .change fun state => { state with account := some account }
      pure account

/-! ## Issuing -/

def newOrder (account : Account) : Run σ Order := do
  let (url, start) ← .askOr (fun cause => .orderCreation cause.message) outside
    (.newOrder account client.domains)
  pure ⟨account, url, start⟩

def makeRequest : Run σ (Keys.PrivateKey × List UInt8) := do
  let entropy ← .draw
  let (key, entropy) := Keys.CurveKey.generate .p256 entropy
  match client.domains.mapM X509.AlternativeName.ofText with
  | .error cause => throw (.certificateGeneration cause)
  | .ok names =>
      match X509.request names (.curve key) entropy with
      | .error cause => throw (.certificateGeneration cause)
      | .ok csr => pure (.curve key, csr)

def certificateOf (chainPem : String) (key : Keys.PrivateKey) (now : Time.Instant) :
    Except IssueError StoredCertificate := do
  let expires ← expiryOf chainPem
  .ok {
    chainPem := chainPem
    keyPem := Pem.writeText .privateKey key.write
    record := ⟨expires, now, client.domains, some client.settings.directoryUrl⟩ }

def complete (order : Order) (ready : OrderState) : Run σ StoredCertificate := do
  let (key, csr) ← client.makeRequest
  let state ← .ask outside (.finalize order.account ready.finalizeUrl csr)
  let chainPem ← order.pollChain outside state
  let certificate ← .fromState fun state => client.certificateOf chainPem key state.wall
  client.save certificate
  pure certificate

def issue : Run σ StoredCertificate := do
  .change fun state => { state with posted := [] }
  let account ← client.obtainAccount outside
  let order ← client.newOrder outside account
  let ready ← .always (order.validate outside client.ports) State.withdrawn
  client.complete outside order ready

end Client

end RegistryFront.Acme
