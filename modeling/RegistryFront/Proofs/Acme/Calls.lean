import RegistryFront.Proofs.Acme.Registration

/-!
# Calls and their accounts

A call comes by its account first.  All that it asks for after this it asks for with the account, and
it does nothing to the files before the certificate is saved at its end.
-/

namespace RegistryFront.Acme

open Files

variable {σ : Type} {outside : Outside σ}

/-! ## Work that is done with an account -/

structure State.Works (account : Account) (before after : State σ) : Prop where
  drive : after.drive = before.drive
  remembered : after.account = before.account
  makes : State.Makes (fun request => request.account? = some account) before after

instance (account : Account) : IsPreorder (State σ) (State.Works account) where
  refl _ := ⟨rfl, rfl, State.makes_of_exchanges rfl⟩
  trans _ _ _ h h' := ⟨h'.drive.trans h.drive, h'.remembered.trans h.remembered,
    IsTrans.trans _ _ _ h.makes h'.makes⟩

theorem State.works_of_exchanges {account : Account} {before after : State σ}
    (hdrive : after.drive = before.drive) (haccount : after.account = before.account)
    (hexchanges : after.exchanges = before.exchanges) : State.Works account before after :=
  ⟨hdrive, haccount, State.makes_of_exchanges hexchanges⟩

theorem works_allowed (outside : Outside σ) (account : Account) :
    outside.AllowsAsking (fun request => request.account? = some account)
      (State.Works account) where
  ask wrap request hrequest state :=
    ⟨rfl, rfl, (makes_allowed outside _).ask wrap request hrequest state⟩
  draw _ := State.works_of_exchanges rfl rfl rfl
  sleep _ _ := State.works_of_exchanges rfl rfl rfl

namespace Client

variable (client : Client)

def seek (outside : Outside σ) (account : Account) : Run σ StoredCertificate := do
  let order ← client.newOrder outside account
  let ready ← .always (order.validate outside client.ports) State.withdrawn
  client.fetch outside order ready

theorem issue_eq_seek (outside : Outside σ) :
    client.issue outside = (do
      .change fun state => { state with posted := [] }
      let account ← client.obtainAccount outside
      let certificate ← client.seek outside account
      client.keep certificate) := by
  rw [client.issue_eq]
  simp only [procure, seek, bind_assoc]

theorem seek_works (outside : Outside σ) (account : Account) :
    (client.seek outside account).Within (State.Works account) := by
  have hallows := works_allowed outside account
  have hsame {before after : State σ} (hdrive : after.drive = before.drive)
      (haccount : after.account = before.account)
      (hexchanges : after.exchanges = before.exchanges) : State.Works account before after :=
    State.works_of_exchanges hdrive haccount hexchanges
  rw [seek, newOrder, bind_assoc]
  refine Run.within_bind (hallows.ask _ _ rfl) fun answer => ?_
  obtain ⟨url, start⟩ := answer
  rw [pure_bind]
  -- from here on there is an order, which is one for the account
  generalize horder : (⟨account, url, start⟩ : Order) = order
  have haccount : order.account = account := by rw [← horder]
  have hvalidates (request : Request) (hrequest : order.Validates request) :
      request.account? = some account := by
    rw [← haccount]
    cases request with
    | orderState => exact congrArg some hrequest.1
    | authorization => exact congrArg some hrequest
    | challengeReady => exact congrArg some hrequest
    | _ => exact hrequest.elim
  have hfetches (request : Request) (hrequest : order.Fetches request) :
      request.account? = some account := by
    rw [← haccount]
    cases request with
    | orderState => exact congrArg some hrequest.1
    | certificate => exact congrArg some hrequest
    | _ => exact hrequest.elim
  have hpost (domain : String) (challenge : Challenge) (responder : Responder) :
      (order.post domain challenge responder).Within (State.Works account) :=
    order.post_within hallows.draw (fun _ _ _ => hsame rfl rfl rfl)
      (fun _ _ _ => hsame rfl rfl rfl) _ _ _
  have hlisten (responder : Responder) :
      (Order.listen outside client.ports responder).Within (State.Works account) :=
    Order.listen_within (fun _ _ _ => hsame rfl rfl rfl) _ _
  have hvalidate := order.validate_within (hallows.mono hvalidates) client.ports hpost hlisten
  refine Run.within_bind (Run.within_always hvalidate fun _ => hsame rfl rfl rfl) fun ready => ?_
  refine Run.within_bind (client.makeRequest_within hallows.draw) fun request => ?_
  refine Run.within_bind (hallows.ask _ _ (congrArg some haccount)) fun final => ?_
  refine Run.within_bind (order.pollChain_within (hallows.mono hfetches) final) fun chainPem => ?_
  exact Run.within_fromState _

/-! ## Whole calls -/

/-- A call, seen from its account: first it comes by the account, without one; then it works with it;
and at its end it may save a certificate. -/
structure Call (client : Client) (outside : Outside σ) (state : State σ)
    (outcome : Except IssueError StoredCertificate × State σ) (found : Except IssueError Account)
    (obtained : State σ) : Prop where
  comes_by : (client.obtainAccount outside).on { state with posted := [] } = (found, obtained)
  before : ∃ made, obtained.exchanges = state.exchanges ++ made ∧
    ∀ exchange ∈ made, exchange.request.account? = none
  after : ∃ worked, outcome.2.exchanges = obtained.exchanges ++ worked ∧
    ∀ exchange ∈ worked, ∃ account, found = .ok account ∧ exchange.request.account? = some account
  remembered : outcome.2.account = obtained.account
  saves : outcome.2.drive = obtained.drive ∨ ∃ certificate,
    (client.store.save obtained.drive client.primaryDomain certificate).2 = outcome.2.drive
  stopped : ∀ cause, found = .error cause → outcome = (.error cause, obtained)

theorem state_of_keep (certificate : StoredCertificate) (state : State σ) :
    ((client.keep certificate).on state).2 =
      { state with
        drive := (client.store.save state.drive client.primaryDomain certificate).2 } := by
  rw [keep_on]
  rcases client.store.save state.drive client.primaryDomain certificate with ⟨_ | _, drive⟩ <;> rfl

theorem call_of_issue (client : Client) (outside : Outside σ) (state : State σ) :
    ∃ found obtained,
      client.Call outside state ((client.issue outside).on state) found obtained := by
  rw [client.issue_eq_seek, Run.on_bind]
  simp only [Run.change, Run.on_of]
  rw [Run.on_bind]
  have hbefore := obtainAccount_makes client outside { state with posted := [] }
  rcases hobtain : (client.obtainAccount outside).on { state with posted := [] } with
    ⟨cause | account, obtained⟩ <;> rw [hobtain] at hbefore
  · refine ⟨_, obtained, ⟨hobtain, hbefore, ⟨[], by simp⟩, rfl, .inl rfl, ?_⟩⟩
    rintro _ ⟨⟩
    rfl
  · refine ⟨.ok account, obtained, ?_⟩
    dsimp only
    obtain ⟨hdrive, haccount, worked, hworked, hwith⟩ := client.seek_works outside account obtained
    have hafter : ∀ exchange ∈ worked, ∃ found,
        (.ok account : Except IssueError Account) = .ok found ∧
          exchange.request.account? = some found :=
      fun exchange hmem => ⟨account, rfl, hwith exchange hmem⟩
    rw [Run.on_bind]
    rcases hseek : (client.seek outside account).on obtained with ⟨cause | certificate, sought⟩ <;>
      rw [hseek] at hdrive haccount hworked
    · exact ⟨hobtain, hbefore, ⟨worked, hworked, hafter⟩, haccount, .inl hdrive, by simp⟩
    · dsimp only at hdrive ⊢
      refine ⟨hobtain, hbefore, ⟨worked, ?_, hafter⟩, ?_, .inr ⟨certificate, ?_⟩, by simp⟩
      · rw [state_of_keep]
        exact hworked
      · rw [state_of_keep]
        exact haccount
      · rw [state_of_keep, hdrive]

section

variable {client} {outcome : Except IssueError StoredCertificate × State σ}
  {found : Except IssueError Account} {state obtained : State σ}

theorem Call.obtains (h : client.Call outside state outcome found obtained) :
    client.Obtains outside { state with posted := [] } (found, obtained) :=
  h.comes_by ▸ client.obtainAccount_obtains outside _

theorem Call.subset_obtained (h : client.Call outside state outcome found obtained) :
    state.exchanges ⊆ obtained.exchanges := by
  obtain ⟨made, hmade, -⟩ := h.before
  simp [hmade]

theorem Call.obtained_subset (h : client.Call outside state outcome found obtained) :
    obtained.exchanges ⊆ outcome.2.exchanges := by
  obtain ⟨worked, hworked, -⟩ := h.after
  simp [hworked]

theorem Call.of_unusable (h : client.Call outside state outcome found obtained)
    (hnone : state.account = none)
    (hfile : state.drive.disk.pathExists (client.store.accountPath client.url) = true)
    (hunusable : ¬ client.Restorable state.drive.disk) :
    ∃ cause, outcome = (.error cause, { state with posted := [] }) := by
  obtain ⟨cause, houtcome⟩ := h.obtains.of_unusable hnone hfile hunusable
  cases houtcome
  exact ⟨cause, h.stopped cause rfl⟩

variable {before later : List Exchange} {exchange : Exchange}

theorem Call.directed (h : client.Call outside state outcome found obtained)
    (hmade : outcome.2.exchanges = state.exchanges ++ (before ++ exchange :: later))
    {endpoints : Endpoints} {key : Keys.CurveKey} {contact : List String}
    (hrequest : exchange.request = .newAccount endpoints key contact) :
    state.account = none ∧
      client.store.loadCredentials state.drive.disk client.url = .ok none ∧
      ∃ directed, client.Directed outside { state with posted := [] } endpoints directed ∧
        directed.exchanges = state.exchanges ++ before := by
  obtain ⟨made, hobtained, -⟩ := h.before
  obtain ⟨worked, hworked, hwith⟩ := h.after
  rw [hworked, hobtained, List.append_assoc] at hmade
  have hnot : exchange ∉ worked := by
    intro hmem
    obtain ⟨account, -, haccount⟩ := hwith exchange hmem
    rw [hrequest] at haccount
    cases haccount
  obtain ⟨rest, rfl⟩ := append_eq_of_not_mem_right (List.append_cancel_left hmade) hnot
  exact h.obtains.directed hobtained hrequest

theorem Call.found_eq (h : client.Call outside state outcome found obtained)
    (hmade : outcome.2.exchanges = state.exchanges ++ (before ++ exchange :: later))
    {account : Account} (hrequest : exchange.request.account? = some account) :
    found = .ok account ∧ obtained.exchanges <+: state.exchanges ++ before := by
  obtain ⟨made, hobtained, hwithout⟩ := h.before
  obtain ⟨worked, hworked, hwith⟩ := h.after
  rw [hworked, hobtained, List.append_assoc] at hmade
  have hnot : exchange ∉ made := by
    intro hmem
    rw [hwithout exchange hmem] at hrequest
    cases hrequest
  obtain ⟨front, rfl, hfront⟩ := append_eq_of_not_mem_left (List.append_cancel_left hmade) hnot
  obtain ⟨other, hother, haccount⟩ := hwith exchange (by simp [hfront])
  rw [hrequest] at haccount
  cases haccount
  exact ⟨hother, front, by rw [hobtained, List.append_assoc]⟩

end

end Client

end RegistryFront.Acme
