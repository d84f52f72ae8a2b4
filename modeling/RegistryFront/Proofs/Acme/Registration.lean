import RegistryFront.Proofs.Acme.Credentials
import RegistryFront.Proofs.Acme.Issuance
import RegistryFront.Proofs.Store.Accounts

/-!
# How a call comes by its account

The account is remembered, restored from the store or registered, in this order.  It is registered
only when the store has no credentials, which are saved then.
-/

namespace RegistryFront.Acme

open Files

variable {σ : Type} {outside : Outside σ}

abbrev Client.url (client : Client) : String := client.settings.directoryUrl

def Request.account? : Request → Option Account
  | .directory _ | .newAccount .. => none
  | .newOrder account _ | .authorization account _ | .challengeReady account _
  | .orderState account _ | .finalize account .. | .certificate account _ => some account

/-! ## One question -/

structure State.Asked (request : Request) (answer : Except ExchangeError request.Answer)
    (before after : State σ) : Prop where
  drive : after.drive = before.drive
  remembered : after.account = before.account
  exchanges : after.exchanges = before.exchanges ++ [⟨request, before.exposure, answer⟩]

theorem asked_of_ask {request : Request} {result : Except IssueError request.Answer}
    {before after : State σ} (h : (Run.ask outside request).on before = (result, after)) :
    ∃ answer, result = answer.mapError .exchange ∧ State.Asked request answer before after := by
  cases h
  exact ⟨_, rfl, rfl, rfl, rfl⟩

theorem asked_of_ask_ok {request : Request} {value : request.Answer} {before after : State σ}
    (h : (Run.ask outside request).on before = (.ok value, after)) :
    State.Asked request (.ok value) before after := by
  obtain ⟨answer, hanswer, hasked⟩ := asked_of_ask h
  cases answer with
  | error => cases hanswer
  | ok => cases hanswer; exact hasked

/-! ## What was asked for, and what is kept -/

structure Registered (url : String) (exchanges : List Exchange) (account : Account) : Prop where
  directory : ∃ exposure, ⟨.directory url, exposure, .ok account.endpoints⟩ ∈ exchanges
  answer : ∃ contact exposure,
    ⟨.newAccount account.endpoints account.key contact, exposure, .ok account.url⟩ ∈ exchanges

theorem Registered.mono {url : String} {exchanges others : List Exchange} {account : Account}
    (h : Registered url exchanges account) (hothers : exchanges ⊆ others) :
    Registered url others account := by
  obtain ⟨⟨exposure, hdirectory⟩, contact, seen, hanswer⟩ := h
  exact ⟨⟨exposure, hothers hdirectory⟩, contact, seen, hothers hanswer⟩

/-- Where requests go with the credentials: to the addresses that the directory they name answered
with, or to their own. -/
def Directs (credentials : Credentials) (exchanges : List Exchange) (endpoints : Endpoints) : Prop :=
  match credentials.directory with
  | some url => ∃ exposure, ⟨.directory url, exposure, .ok endpoints⟩ ∈ exchanges
  | none => credentials.endpoints = some endpoints

theorem Directs.mono {credentials : Credentials} {exchanges others : List Exchange}
    {endpoints : Endpoints} (h : Directs credentials exchanges endpoints)
    (hothers : exchanges ⊆ others) : Directs credentials others endpoints := by
  unfold Directs at h ⊢
  split at h
  · obtain ⟨exposure, hdirectory⟩ := h
    exact ⟨exposure, hothers hdirectory⟩
  · exact h

def Fits (text : String) (exchanges : List Exchange) (account : Account) : Prop :=
  ∃ credentials, Credentials.read text = .ok credentials ∧ credentials.id = account.url ∧
    credentials.key = .ok account.key ∧ Directs credentials exchanges account.endpoints

theorem Fits.mono {text : String} {exchanges others : List Exchange} {account : Account}
    (h : Fits text exchanges account) (hothers : exchanges ⊆ others) : Fits text others account := by
  obtain ⟨credentials, hread, hid, hkey, hdirects⟩ := h
  exact ⟨credentials, hread, hid, hkey, hdirects.mono hothers⟩

theorem Fits.ne_empty {text : String} {exchanges : List Exchange} {account : Account}
    (h : Fits text exchanges account) : text ≠ "" := by
  rintro rfl
  obtain ⟨credentials, hread, -⟩ := h
  obtain ⟨cause, hempty⟩ := Credentials.read_empty
  rw [hempty] at hread
  cases hread

theorem Registered.fits {url : String} {exchanges : List Exchange} {account : Account}
    (h : Registered url exchanges account) (hcurve : account.key.curve = .p256) :
    Fits (Credentials.ofAccount account url).write exchanges account :=
  ⟨_, Credentials.read_ofAccount account url, rfl, Credentials.key_ofAccount hcurve url, h.directory⟩

/-! ## Where an exchange stands -/

section

variable {made worked before later : List Exchange} {exchange : Exchange}

theorem append_eq_of_not_mem_left (h : made ++ worked = before ++ exchange :: later)
    (hnot : exchange ∉ made) :
    ∃ front, before = made ++ front ∧ worked = front ++ exchange :: later := by
  obtain ⟨front, hbefore, hworked⟩ | ⟨rest, hmade, hworked⟩ := List.append_eq_append_iff.mp h
  · exact ⟨front, hbefore, hworked⟩
  · cases rest with
    | nil => exact ⟨[], by simpa using hmade.symm, hworked.symm⟩
    | cons first rest =>
        obtain ⟨rfl, -⟩ := List.cons.inj hworked
        exact absurd (by rw [hmade]; simp) hnot

theorem append_eq_of_not_mem_right (h : made ++ worked = before ++ exchange :: later)
    (hnot : exchange ∉ worked) :
    ∃ rest, made = before ++ exchange :: rest := by
  obtain ⟨front, -, hworked⟩ | ⟨rest, hmade, hworked⟩ := List.append_eq_append_iff.mp h
  · exact absurd (by rw [hworked]; simp) hnot
  · cases rest with
    | nil => exact absurd (by rw [← List.nil_append worked, ← hworked]; simp) hnot
    | cons first rest =>
        obtain ⟨rfl, -⟩ := List.cons.inj hworked
        exact ⟨rest, hmade⟩

end

namespace Client

variable {client : Client} {state after : State σ} {account : Account}

/-! ## Registering -/

structure Directed (client : Client) (outside : Outside σ) (state : State σ)
    (endpoints : Endpoints) (directed : State σ) : Prop where
  ask : (Run.ask outside (.directory client.url)).on state = (.ok endpoints, directed)
  asked : State.Asked (.directory client.url) (.ok endpoints) state directed

inductive Registers (client : Client) (outside : Outside σ) (state : State σ) :
    Except IssueError Account × State σ → Prop
  | undirected {answer : Except ExchangeError Endpoints} {cause : IssueError} {after : State σ}
      (hasked : State.Asked (.directory client.url) answer state after) :
      Registers client outside state (.error cause, after)
  | refused {endpoints : Endpoints} {directed after : State σ}
      {answer : Except ExchangeError String} {cause : IssueError}
      (hdirected : client.Directed outside state endpoints directed)
      (hasked : State.Asked (.newAccount endpoints directed.nextKey.1 client.contact) answer
        directed.drawn after) :
      Registers client outside state (.error cause, after)
  | saved {endpoints : Endpoints} {directed answered : State σ} {id : String}
      {result : Except StoreError Unit} {drive : Drive}
      (hdirected : client.Directed outside state endpoints directed)
      (hasked : State.Asked (.newAccount endpoints directed.nextKey.1 client.contact) (.ok id)
        directed.drawn answered)
      (hsave : client.store.saveCredentials answered.drive client.url
        (Credentials.ofAccount ⟨id, directed.nextKey.1, endpoints⟩ client.url).write =
          (result, drive)) :
      Registers client outside state
        ((result.mapError .store).map fun _ => ⟨id, directed.nextKey.1, endpoints⟩,
          { answered with drive := drive })

theorem makeAccount_registers (client : Client) (outside : Outside σ) (state : State σ) :
    client.Registers outside state ((client.makeAccount outside).on state) := by
  simp only [makeAccount]
  rw [Run.on_bind]
  rcases hdirectory : (Run.ask outside (.directory client.url)).on state with
    ⟨cause | endpoints, directed⟩
  · obtain ⟨answer, -, hasked⟩ := asked_of_ask hdirectory
    exact .undirected hasked
  dsimp only
  have hdirected : client.Directed outside state endpoints directed :=
    ⟨hdirectory, asked_of_ask_ok hdirectory⟩
  rw [Run.draw_bind_on, Run.on_bind, ← State.nextKey]
  rcases haccount : (Run.ask outside (.newAccount endpoints directed.nextKey.1 client.contact)).on
    directed.drawn with ⟨cause | id, answered⟩
  · obtain ⟨answer, -, hasked⟩ := asked_of_ask haccount
    exact .refused hdirected hasked
  dsimp only
  rw [Run.on_bind, Run.onDrive, Run.on_of]
  rcases hsave : client.store.saveCredentials answered.drive client.url
    (Credentials.ofAccount ⟨id, directed.nextKey.1, endpoints⟩ client.url).write with
    ⟨result, drive⟩
  have hsaved := Registers.saved hdirected (asked_of_ask_ok haccount) hsave
  cases result <;> exact hsaved

theorem Registers.account_eq {outcome : Except IssueError Account × State σ}
    (h : client.Registers outside state outcome) : outcome.2.account = state.account := by
  cases h with
  | undirected hasked => exact hasked.remembered
  | refused hdirected hasked => exact hasked.remembered.trans hdirected.asked.remembered
  | saved hdirected hasked => exact hasked.remembered.trans hdirected.asked.remembered

theorem Registers.saves {outcome : Except IssueError Account × State σ}
    (h : client.Registers outside state outcome) :
    (∃ cause, outcome.1 = .error cause ∧ outcome.2.drive = state.drive) ∨
      ∃ account saved, Registered client.url outcome.2.exchanges account ∧
        account.key.curve = .p256 ∧
        client.store.saveCredentials state.drive client.url
          (Credentials.ofAccount account client.url).write = (saved, outcome.2.drive) ∧
        outcome.1 = (saved.mapError .store).map fun _ => account := by
  cases h with
  | undirected hasked => exact .inl ⟨_, rfl, hasked.drive⟩
  | refused hdirected hasked => exact .inl ⟨_, rfl, hasked.drive.trans hdirected.asked.drive⟩
  | @saved _ directed answered _ _ _ hdirected hasked hsave =>
      have hdrive : answered.drive = state.drive := hasked.drive.trans hdirected.asked.drive
      have hbefore : directed.drawn.exchanges = _ := hdirected.asked.exchanges
      have hexchanges := hasked.exchanges
      rw [hbefore] at hexchanges
      rw [hdrive] at hsave
      refine .inr ⟨_, _, ⟨⟨state.exposure, ?_⟩, client.contact, directed.drawn.exposure, ?_⟩,
        rfl, hsave, rfl⟩
      · simp [hexchanges]
      · simp [hexchanges]

theorem Registers.directed {outcome : Except IssueError Account × State σ}
    (h : client.Registers outside state outcome) {before later : List Exchange}
    {exchange : Exchange} {endpoints : Endpoints} {key : Keys.CurveKey} {contact : List String}
    (hmade : outcome.2.exchanges = state.exchanges ++ (before ++ exchange :: later))
    (hrequest : exchange.request = .newAccount endpoints key contact) :
    ∃ directed, client.Directed outside state endpoints directed ∧
      directed.exchanges = state.exchanges ++ before := by
  have hnot {answer : Except ExchangeError Endpoints} :
      exchange ∉ [⟨.directory client.url, state.exposure, answer⟩] := by
    rw [List.mem_singleton]
    rintro rfl
    cases hrequest
  have hlast {found : Endpoints} {directed answered : State σ}
      {answer : Except ExchangeError String}
      (hdirected : client.Directed outside state found directed)
      (hasked : State.Asked (.newAccount found directed.nextKey.1 client.contact) answer
        directed.drawn answered)
      (hmade : answered.exchanges = state.exchanges ++ (before ++ exchange :: later)) :
      ∃ directed, client.Directed outside state endpoints directed ∧
        directed.exchanges = state.exchanges ++ before := by
    have hdirectory : directed.drawn.exchanges = _ := hdirected.asked.exchanges
    rw [hasked.exchanges, hdirectory, List.append_assoc] at hmade
    obtain ⟨front, rfl, hfront⟩ :=
      append_eq_of_not_mem_left (List.append_cancel_left hmade) hnot
    obtain ⟨rfl, rfl, -⟩ : front = [] ∧
        exchange = ⟨.newAccount found directed.nextKey.1 client.contact, directed.drawn.exposure,
          answer⟩ ∧ later = [] := by
      simpa [List.singleton_eq_append_iff] using hfront
    cases hrequest
    exact ⟨directed, hdirected, by simpa using hdirected.asked.exchanges⟩
  cases h with
  | undirected hasked =>
      have hlist := List.append_cancel_left (hasked.exchanges.symm.trans hmade)
      exact absurd (by rw [hlist]; simp) hnot
  | refused hdirected hasked => exact hlast hdirected hasked hmade
  | saved hdirected hasked => exact hlast hdirected hasked hmade

/-! ## Restoring -/

def Restorable (client : Client) (disk : Disk) : Prop :=
  ∃ text credentials key,
    client.store.loadCredentials disk client.url = .ok (some text) ∧
      Credentials.read text = .ok credentials ∧ credentials.key = .ok key

theorem restorable_iff {disk : Disk} {text : String}
    (hload : client.store.loadCredentials disk client.url = .ok (some text)) :
    client.Restorable disk ↔
      ∃ credentials key, Credentials.read text = .ok credentials ∧ credentials.key = .ok key := by
  constructor
  · rintro ⟨found, credentials, key, hfound, hread⟩
    rw [hload] at hfound
    cases hfound
    exact ⟨credentials, key, hread⟩
  · rintro ⟨credentials, key, hread⟩
    exact ⟨text, credentials, key, hload, hread⟩

theorem endpointsFor_on {credentials : Credentials} {found : Except IssueError Endpoints}
    (h : (endpointsFor outside credentials).on state = (found, after)) :
    after.drive = state.drive ∧ after.account = state.account ∧
      State.Makes (fun request => ∃ url, request = .directory url) state after ∧
      ∀ endpoints, found = .ok endpoints → Directs credentials after.exchanges endpoints := by
  unfold endpointsFor at h
  unfold Directs
  split at h
  · next url hdirectory =>
      obtain ⟨answer, rfl, hasked⟩ := asked_of_ask h
      refine ⟨hasked.drive, hasked.remembered, ⟨_, hasked.exchanges, by simp⟩, ?_⟩
      rintro endpoints hfound
      obtain rfl : answer = .ok endpoints := by cases answer <;> cases hfound; rfl
      rw [hdirectory]
      exact ⟨state.exposure, by simp [hasked.exchanges]⟩
  · next endpoints hdirectory hendpoints =>
      cases h
      refine ⟨rfl, rfl, State.makes_of_exchanges rfl, ?_⟩
      rintro endpoints ⟨⟩
      rwa [hdirectory]
  · cases h
    exact ⟨rfl, rfl, State.makes_of_exchanges rfl, nofun⟩

/-! ## Coming by an account -/

def remembering : Except IssueError Account × State σ → Except IssueError Account × State σ
  | (.ok account, state) => (.ok account, { state with account := some account })
  | (.error cause, state) => (.error cause, state)

theorem remembering_eq_ok {outcome : Except IssueError Account × State σ}
    (h : remembering outcome = (.ok account, after)) :
    ∃ before, outcome = (.ok account, before) ∧
      after = { before with account := some account } := by
  obtain ⟨_ | found, before⟩ := outcome <;> cases h
  exact ⟨before, rfl, rfl⟩

theorem remembering_account (outcome : Except IssueError Account × State σ)
    (hnone : outcome.2.account = none) :
    (remembering outcome).2.account = (remembering outcome).1.toOption := by
  obtain ⟨_ | found, before⟩ := outcome
  · exact hnone
  · rfl

@[simp] theorem remembering_drive (outcome : Except IssueError Account × State σ) :
    (remembering outcome).2.drive = outcome.2.drive := by
  obtain ⟨_ | found, before⟩ := outcome <;> rfl

@[simp] theorem remembering_exchanges (outcome : Except IssueError Account × State σ) :
    (remembering outcome).2.exchanges = outcome.2.exchanges := by
  obtain ⟨_ | found, before⟩ := outcome <;> rfl

inductive Obtains (client : Client) (outside : Outside σ) (state : State σ) :
    Except IssueError Account × State σ → Prop
  | remembered {account : Account} (haccount : state.account = some account) :
      Obtains client outside state (.ok account, state)
  | unusable {cause : IssueError} (hnone : state.account = none)
      (hfile : state.drive.disk.pathExists (client.store.accountPath client.url) = true)
      (hunusable : ¬ client.Restorable state.drive.disk) :
      Obtains client outside state (.error cause, state)
  | restored {text : String} {credentials : Credentials} {key : Keys.CurveKey}
      {result : Except IssueError Endpoints} {after : State σ} (hnone : state.account = none)
      (hload : client.store.loadCredentials state.drive.disk client.url = .ok (some text))
      (hread : Credentials.read text = .ok credentials) (hkey : credentials.key = .ok key)
      (hendpoints : (endpointsFor outside credentials).on state = (result, after)) :
      Obtains client outside state
        (remembering (result.map fun endpoints => ⟨credentials.id, key, endpoints⟩, after))
  | registered {outcome : Except IssueError Account × State σ} (hnone : state.account = none)
      (hmissing : client.store.loadCredentials state.drive.disk client.url = .ok none)
      (hregisters : client.Registers outside state outcome) :
      Obtains client outside state (remembering outcome)

theorem obtainAccount_on_of_none (hnone : state.account = none) :
    (client.obtainAccount outside).on state =
      remembering ((client.loadOrMakeAccount outside).on state) := by
  rw [obtainAccount, Run.on_bind, Run.fromState, Run.on_of]
  dsimp only
  rw [hnone]
  dsimp only
  rw [Run.on_bind]
  rcases (client.loadOrMakeAccount outside).on state with ⟨_ | account, after⟩ <;> rfl

theorem obtainAccount_obtains (client : Client) (outside : Outside σ) (state : State σ) :
    client.Obtains outside state ((client.obtainAccount outside).on state) := by
  cases haccount : state.account with
  | some account =>
      rw [obtainAccount, Run.on_bind, Run.fromState, Run.on_of]
      dsimp only
      rw [haccount]
      exact .remembered haccount
  | none =>
      rw [obtainAccount_on_of_none haccount, loadOrMakeAccount, Run.on_bind, loadCredentials,
        Run.fromState, Run.on_of]
      have hfile (hload : client.store.loadCredentials state.drive.disk client.url ≠ .ok none) :
          state.drive.disk.pathExists (client.store.accountPath client.url) = true := by
        rwa [Ne, Store.loadCredentials_eq_none_iff, Bool.not_eq_false] at hload
      rcases hload : client.store.loadCredentials state.drive.disk client.url with
        _ | _ | text
      · refine .unusable haccount (hfile (by simp [hload])) ?_
        rintro ⟨text, credentials, key, hrestorable, -⟩
        simp [hload] at hrestorable
      · exact .registered haccount hload (client.makeAccount_registers outside state)
      · dsimp only [Except.mapError]
        have hexists := hfile (by simp [hload])
        rw [restoreAccount]
        cases hread : Credentials.read text with
        | error cause =>
            exact .unusable haccount hexists (mt (restorable_iff hload).mp (by simp [hread]))
        | ok credentials =>
            dsimp only
            cases hkey : credentials.key with
            | error cause =>
                exact .unusable haccount hexists
                  (mt (restorable_iff hload).mp (by simp [hread, hkey]))
            | ok key =>
                dsimp only
                rw [Run.on_bind]
                rcases hendpoints : (endpointsFor outside credentials).on state with
                  ⟨cause | endpoints, after⟩ <;>
                exact .restored haccount hload hread hkey hendpoints

theorem obtainAccount_makes (client : Client) (outside : Outside σ) :
    (client.obtainAccount outside).Within (State.Makes fun request => request.account? = none) := by
  refine client.obtainAccount_within ((makes_allowed outside _).mono fun request hrequest => ?_)
    (makes_allowsAccount _)
  cases request with
  | directory => rfl
  | newAccount => rfl
  | _ => exact hrequest.elim

/-! ## What follows for coming by an account -/

theorem Obtains.account_eq {outcome : Except IssueError Account × State σ}
    (h : client.Obtains outside state outcome) : outcome.2.account = outcome.1.toOption := by
  cases h with
  | remembered haccount => exact haccount
  | unusable hnone => exact hnone
  | restored hnone _ _ _ hendpoints =>
      obtain ⟨-, haccount, -⟩ := endpointsFor_on hendpoints
      exact remembering_account _ (haccount.trans hnone)
  | registered hnone _ hregisters =>
      exact remembering_account _ (hregisters.account_eq.trans hnone)

theorem Obtains.saves {outcome : Except IssueError Account × State σ}
    (h : client.Obtains outside state outcome) :
    outcome.2.drive = state.drive ∨
      ∃ account, Registered client.url outcome.2.exchanges account ∧
        client.store.loadCredentials state.drive.disk client.url = .ok none ∧
        (client.store.saveCredentials state.drive client.url
          (Credentials.ofAccount account client.url).write).2 = outcome.2.drive := by
  cases h with
  | remembered => exact .inl rfl
  | unusable => exact .inl rfl
  | restored _ _ _ _ hendpoints =>
      rw [remembering_drive]
      exact .inl (endpointsFor_on hendpoints).1
  | registered _ hmissing hregisters =>
      rw [remembering_drive, remembering_exchanges]
      obtain ⟨-, -, hdrive⟩ | ⟨account, saved, hregistered, -, hsave, -⟩ := hregisters.saves
      · exact .inl hdrive
      · exact .inr ⟨account, hregistered, hmissing, congrArg Prod.snd hsave⟩

theorem Obtains.of_ok (h : client.Obtains outside state (.ok account, after)) :
    state.account = some account ∧ after = state ∨
      (∃ text,
        client.store.loadCredentials state.drive.disk client.url = .ok (some text) ∧
        Fits text after.exchanges account ∧ after.drive = state.drive) ∨
      Registered client.url after.exchanges account ∧
        account.key.curve = .p256 ∧
        client.store.saveCredentials state.drive client.url
          (Credentials.ofAccount account client.url).write = (.ok (), after.drive) := by
  generalize houtcome : (Except.ok account, after) = outcome at h
  cases h with
  | remembered haccount =>
      cases houtcome
      exact .inl ⟨haccount, rfl⟩
  | unusable => cases houtcome
  | @restored text credentials key result reached _ hload hread hkey hendpoints =>
      obtain ⟨before, hbefore, rfl⟩ := remembering_eq_ok houtcome.symm
      cases result with
      | error => cases hbefore
      | ok endpoints =>
          cases hbefore
          obtain ⟨hdrive, -, -, hdirects⟩ := endpointsFor_on hendpoints
          exact .inr (.inl ⟨text, hload, ⟨credentials, hread, rfl, hkey, hdirects _ rfl⟩, hdrive⟩)
  | registered _ _ hregisters =>
      obtain ⟨before, rfl, rfl⟩ := remembering_eq_ok houtcome.symm
      obtain ⟨_, hcause, -⟩ | ⟨found, saved, hregistered, hcurve, hsave, hresult⟩ :=
        hregisters.saves
      · cases hcause
      · cases saved with
        | error => cases hresult
        | ok =>
            cases hresult
            exact .inr (.inr ⟨hregistered, hcurve, hsave⟩)

/-- When a new account is asked for, the directory has just answered, and none of the account was
known before: neither to the client nor to its store. -/
theorem Obtains.directed {outcome : Except IssueError Account × State σ}
    (h : client.Obtains outside state outcome) {before later : List Exchange}
    {exchange : Exchange} {endpoints : Endpoints} {key : Keys.CurveKey} {contact : List String}
    (hmade : outcome.2.exchanges = state.exchanges ++ (before ++ exchange :: later))
    (hrequest : exchange.request = .newAccount endpoints key contact) :
    state.account = none ∧
      client.store.loadCredentials state.drive.disk client.url = .ok none ∧
      ∃ directed, client.Directed outside state endpoints directed ∧
        directed.exchanges = state.exchanges ++ before := by
  have hnone (hsame : state.exchanges = state.exchanges ++ (before ++ exchange :: later)) :
      False := by simp at hsame
  cases h with
  | remembered => exact (hnone hmade).elim
  | unusable => exact (hnone hmade).elim
  | restored _ _ _ _ hendpoints =>
      rw [remembering_exchanges] at hmade
      obtain ⟨-, -, ⟨made, hexchanges, hdirectories⟩, -⟩ := endpointsFor_on hendpoints
      obtain rfl := List.append_cancel_left (hexchanges.symm.trans hmade)
      obtain ⟨url, hurl⟩ := hdirectories exchange (by simp)
      cases hurl.symm.trans hrequest
  | registered haccount hmissing hregisters =>
      rw [remembering_exchanges] at hmade
      exact ⟨haccount, hmissing, hregisters.directed hmade hrequest⟩

theorem Obtains.of_remembered {outcome : Except IssueError Account × State σ}
    (h : client.Obtains outside state outcome) (haccount : state.account = some account) :
    outcome = (.ok account, state) := by
  have hsome (hnone : state.account = none) : False := by simp [haccount] at hnone
  cases h with
  | remembered hother =>
      rw [haccount] at hother
      cases hother
      rfl
  | unusable hnone => exact (hsome hnone).elim
  | restored hnone => exact (hsome hnone).elim
  | registered hnone => exact (hsome hnone).elim

theorem Obtains.of_unusable {outcome : Except IssueError Account × State σ}
    (h : client.Obtains outside state outcome) (hnone : state.account = none)
    (hfile : state.drive.disk.pathExists (client.store.accountPath client.url) = true)
    (hunusable : ¬ client.Restorable state.drive.disk) :
    ∃ cause, outcome = (.error cause, state) := by
  cases h with
  | remembered haccount =>
      rw [hnone] at haccount
      cases haccount
  | unusable => exact ⟨_, rfl⟩
  | restored _ hload hread hkey =>
      exact absurd ((restorable_iff hload).mpr ⟨_, _, hread, hkey⟩) hunusable
  | registered _ hmissing =>
      rw [Store.loadCredentials_eq_none_iff, hfile] at hmissing
      cases hmissing

end Client

end RegistryFront.Acme
