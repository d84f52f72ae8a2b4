import Mathlib.Order.Defs.Unbundled
import RegistryFront.Acme.Client

/-!
# What a run can do to the state

A run stays within a relation when every start is related to its end.  For a preorder that is so as
soon as it is so for the steps the run is made of.  Everything that is said to the authority and all
waiting is made of a few such steps, which change nothing but the surroundings of the client.
-/

namespace RegistryFront.Acme

variable {σ α β : Type}

namespace Run

/-- Wherever the run starts, it ends in a related state. -/
def Within (R : State σ → State σ → Prop) (run : Run σ α) : Prop :=
  ∀ state, R state (run.on state).2

variable {R : State σ → State σ → Prop}

theorem within_of_le {S : State σ → State σ → Prop} (h : ∀ a b, R a b → S a b) {run : Run σ α}
    (hrun : run.Within R) : run.Within S :=
  fun state => h _ _ (hrun state)

section Preorder

variable [IsPreorder (State σ) R]

theorem within_pure (value : α) : (pure value : Run σ α).Within R := fun state => refl_of R state

theorem within_throw (cause : IssueError) : (throw cause : Run σ α).Within R :=
  fun state => refl_of R state

theorem within_fromState (read : State σ → Except IssueError α) : (fromState read).Within R :=
  fun state => refl_of R state

theorem within_bind {run : Run σ α} {next : α → Run σ β} (hrun : run.Within R)
    (hnext : ∀ value, (next value).Within R) : (run >>= next).Within R := by
  intro state
  rw [on_bind]
  have hfirst := hrun state
  rcases hrest : run.on state with ⟨_ | value, middle⟩ <;> rw [hrest] at hfirst
  · exact hfirst
  · exact trans_of R hfirst (hnext value middle)

theorem within_map {run : Run σ α} (f : α → β) (hrun : run.Within R) : (f <$> run).Within R := by
  rw [map_eq_pure_bind]
  exact within_bind hrun fun value => within_pure (f value)

end Preorder

theorem within_change {step : State σ → State σ} (h : ∀ state, R state (step state)) :
    (change step).Within R := h

theorem within_always [IsTrans (State σ) R] {run : Run σ α} {after : State σ → State σ}
    (hrun : run.Within R) (hafter : ∀ state, R state (after state)) :
    (run.always after).Within R :=
  fun state => trans_of R (hrun state) (hafter _)

end Run

/-! ## Talking to the outside -/

/-- What asking, waiting and drawing of chance all stay within. -/
structure Outside.Allows (outside : Outside σ) (R : State σ → State σ → Prop) : Prop
    extends IsPreorder (State σ) R where
  ask : ∀ wrap request, (Run.askOr wrap outside request).Within R
  draw : (Run.draw (σ := σ)).Within R
  sleep : ∀ nanos state, R state (state.slept outside nanos)

structure Outside.AllowsAsking (outside : Outside σ) (asked : Request → Prop)
    (R : State σ → State σ → Prop) : Prop extends IsPreorder (State σ) R where
  ask : ∀ wrap request, asked request → (Run.askOr wrap outside request).Within R
  draw : (Run.draw (σ := σ)).Within R
  sleep : ∀ nanos state, R state (state.slept outside nanos)

variable {outside : Outside σ} {R : State σ → State σ → Prop}

theorem Outside.Allows.asking (h : outside.Allows R) (asked : Request → Prop) :
    outside.AllowsAsking asked R :=
  { h with ask := fun wrap request _ => h.ask wrap request }

theorem Outside.AllowsAsking.mono {asked fewer : Request → Prop} (h : outside.AllowsAsking asked R)
    (hfewer : ∀ request, fewer request → asked request) : outside.AllowsAsking fewer R :=
  { h with ask := fun wrap request hrequest => h.ask wrap request (hfewer request hrequest) }

def Request.SetsUp : Request → Prop
  | .directory _ | .newAccount .. => True
  | _ => False

namespace Order

def Validates (order : Order) : Request → Prop
  | .authorization account _ | .challengeReady account _ => account = order.account
  | .orderState account url => account = order.account ∧ url = order.url
  | _ => False

def Fetches (order : Order) : Request → Prop
  | .orderState account url => account = order.account ∧ url = order.url
  | .certificate account _ => account = order.account
  | _ => False

end Order

namespace Polling

variable [IsPreorder (State σ) R]

theorem pollFrom_within (hsleep : ∀ nanos state, R state (state.slept outside nanos))
    {once : β → Run σ (Attempt β α)} (honce : ∀ current, (once current).Within R) (limit : Limit)
    (attempt left : Nat) (current : β) (state : State σ) :
    R state (pollFrom outside limit once attempt left current state).2 := by
  fun_induction pollFrom outside limit once attempt left current state with
  | case1 attempt left current state cause after hafter =>
      simpa [hafter] using honce current state
  | case2 attempt left current state value after hafter =>
      simpa [hafter] using honce current state
  | case3 attempt left current state next after hafter needed hleft =>
      simpa [hafter] using honce current state
  | case4 attempt left current state next after hafter needed hleft ih =>
      have hfirst : R state after := by simpa [hafter] using honce current state
      exact trans_of R hfirst (trans_of R (hsleep _ after) ih)

theorem poll_within (hsleep : ∀ nanos state, R state (state.slept outside nanos))
    {once : β → Run σ (Attempt β α)} (honce : ∀ current, (once current).Within R) (limit : Limit)
    (first : β) : (poll outside limit once first).Within R := by
  intro state
  rw [poll, Run.on_of]
  exact pollFrom_within hsleep honce limit 0 limit.nanos first state

end Polling

namespace Order

variable (order : Order)

theorem authorizations_within [IsPreorder (State σ) R]
    (hask : ∀ url, (Run.ask outside (.authorization order.account url)).Within R)
    (urls : List String) : (authorizations outside order urls).Within R := by
  induction urls with
  | nil => exact Run.within_pure _
  | cons url rest ih =>
      exact Run.within_bind (hask url) fun _ => Run.within_bind ih fun _ => Run.within_pure _

theorem announce_within [IsPreorder (State σ) R]
    (hask : ∀ url, (Run.ask outside (.challengeReady order.account url)).Within R)
    (urls : List String) : (announce outside order urls).Within R := by
  induction urls with
  | nil => exact Run.within_pure _
  | cons url rest ih => exact Run.within_bind (hask url) fun _ => ih

theorem readyAttempt_within [IsPreorder (State σ) R]
    (hask : (Run.ask outside (.orderState order.account order.url)).Within R) (current : Unit) :
    (readyAttempt outside order current).Within R := by
  refine Run.within_bind hask fun state => ?_
  split
  · exact Run.within_pure _
  · exact Run.within_pure _
  · exact Run.within_throw _
  · exact Run.within_pure _
  · exact Run.within_pure _

theorem pollReady_within [IsPreorder (State σ) R]
    (hsleep : ∀ nanos state, R state (state.slept outside nanos))
    (hask : (Run.ask outside (.orderState order.account order.url)).Within R) :
    (pollReady outside order).Within R :=
  Polling.poll_within hsleep (order.readyAttempt_within hask) _ _

theorem latestState_within (h : outside.AllowsAsking order.Fetches R) (state : OrderState) :
    (latestState outside order state).Within R := by
  have := h.toIsPreorder
  unfold latestState
  split
  · exact h.ask _ _ ⟨rfl, rfl⟩
  · exact Run.within_pure _

theorem chainAttempt_within (h : outside.AllowsAsking order.Fetches R) (state : OrderState) :
    (chainAttempt outside order state).Within R := by
  have := h.toIsPreorder
  refine Run.within_bind (latestState_within order h state) fun latest => ?_
  split
  · exact Run.within_throw _
  · exact Run.within_pure _
  · exact Run.within_map _ (h.ask _ _ rfl)
  · exact Run.within_throw _
  · exact Run.within_throw _

theorem pollChain_within (h : outside.AllowsAsking order.Fetches R) (state : OrderState) :
    (pollChain outside order state).Within R := by
  have := h.toIsPreorder
  exact Polling.poll_within h.sleep (fun current => chainAttempt_within order h current) _ _

theorem listen_within (h : ∀ (state : State σ) inner responders,
      R state { state with outside := inner, responders := responders })
    (ports : Ports) (responder : Responder) : (listen outside ports responder).Within R := by
  intro state
  rw [listen, Run.on_of]
  split
  · exact h state state.outside state.responders
  · dsimp only
    split
    · exact h state _ _
    · exact h state _ state.responders
    · exact h state _ state.responders

theorem post_within [IsPreorder (State σ) R] (hdraw : (Run.draw (σ := σ)).Within R)
    (htext : ∀ (state : State σ) token answer, R state (state.postText token answer))
    (hcertificate : ∀ (state : State σ) domain certified,
      R state (state.postCertificate domain certified))
    (domain : String) (challenge : Challenge) (responder : Responder) :
    (post order domain challenge responder).Within R := by
  cases responder with
  | http01 => exact Run.within_change fun state => htext state _ _
  | tlsAlpn01 =>
      refine Run.within_bind hdraw fun entropy => ?_
      dsimp only
      split
      · exact Run.within_change fun state => hcertificate state _ _
      · exact Run.within_throw _

theorem prepareAll_within [IsPreorder (State σ) R] (ports : Ports)
    (hpost : ∀ domain challenge responder, (post order domain challenge responder).Within R)
    (hlisten : ∀ responder, (listen outside ports responder).Within R)
    (list : List Authorization) : (prepareAll outside order ports list).Within R := by
  have hprepare (authorization : Authorization) :
      (prepare outside order ports authorization).Within R := by
    unfold prepare
    split
    · exact Run.within_pure _
    · split
      · exact Run.within_throw _
      · exact Run.within_bind (hpost _ _ _) fun _ =>
          Run.within_bind (hlisten _) fun _ => Run.within_pure _
    · exact Run.within_throw _
  induction list with
  | nil => exact Run.within_pure _
  | cons authorization rest ih =>
      exact Run.within_bind (hprepare authorization) fun _ =>
        Run.within_bind ih fun _ => Run.within_pure _

theorem validate_within (h : outside.AllowsAsking order.Validates R) (ports : Ports)
    (hpost : ∀ domain challenge responder, (post order domain challenge responder).Within R)
    (hlisten : ∀ responder, (listen outside ports responder).Within R) :
    (validate outside order ports).Within R := by
  have := h.toIsPreorder
  refine Run.within_bind (authorizations_within order (fun _ => h.ask _ _ rfl) _) fun list => ?_
  refine Run.within_bind (prepareAll_within order ports hpost hlisten list) fun urls => ?_
  exact Run.within_bind (announce_within order (fun _ => h.ask _ _ rfl) urls) fun _ =>
    pollReady_within order h.sleep (h.ask _ _ ⟨rfl, rfl⟩)

end Order

namespace Client

variable (client : Client)

theorem restoreAccount_within (h : outside.AllowsAsking Request.SetsUp R) (text : String) :
    (restoreAccount outside text).Within R := by
  have := h.toIsPreorder
  have hendpoints (credentials : Credentials) : (endpointsFor outside credentials).Within R := by
    unfold endpointsFor
    split
    · exact h.ask _ _ trivial
    · exact Run.within_pure _
    · exact Run.within_throw _
  unfold restoreAccount
  split
  · exact Run.within_throw _
  · split
    · exact Run.within_throw _
    · exact Run.within_bind (hendpoints _) fun _ => Run.within_pure _

structure AllowsAccount (R : State σ → State σ → Prop) : Prop where
  save : ∀ text, (Run.onDrive .store fun drive =>
    client.store.saveCredentials drive client.settings.directoryUrl text).Within R
  keep : ∀ account state, R state { state with account := account }

theorem obtainAccount_within (h : outside.AllowsAsking Request.SetsUp R)
    (haccount : client.AllowsAccount R) : (client.obtainAccount outside).Within R := by
  have := h.toIsPreorder
  have hmake : (client.makeAccount outside).Within R := by
    refine Run.within_bind (h.ask _ _ trivial) fun endpoints => ?_
    refine Run.within_bind h.draw fun entropy => ?_
    refine Run.within_bind (h.ask _ _ trivial) fun id => ?_
    exact Run.within_bind (haccount.save _) fun _ => Run.within_pure _
  have hload : (client.loadOrMakeAccount outside).Within R := by
    refine Run.within_bind (Run.within_fromState _) fun text => ?_
    cases text with
    | some text => exact restoreAccount_within h text
    | none => exact hmake
  refine Run.within_bind (Run.within_fromState _) fun account => ?_
  cases account with
  | some account => exact Run.within_pure _
  | none =>
      refine Run.within_bind hload fun account => ?_
      exact Run.within_bind (Run.within_change fun state => haccount.keep _ state) fun _ =>
        Run.within_pure _

theorem newOrder_within (h : outside.Allows R) (account : Account) :
    (client.newOrder outside account).Within R := by
  have := h.toIsPreorder
  exact Run.within_bind (h.ask _ _) fun _ => Run.within_pure _

theorem makeRequest_within [IsPreorder (State σ) R] (hdraw : (Run.draw (σ := σ)).Within R) :
    (client.makeRequest (σ := σ)).Within R := by
  refine Run.within_bind hdraw fun entropy => ?_
  dsimp only
  split
  · exact Run.within_throw _
  · split
    · exact Run.within_throw _
    · exact Run.within_pure _

/-- Up to the moment when the certificate is saved. -/
theorem complete_within (h : outside.Allows R)
    (hsave : ∀ certificate, (client.save (σ := σ) certificate).Within R) (order : Order)
    (ready : OrderState) : (client.complete outside order ready).Within R := by
  have := h.toIsPreorder
  refine Run.within_bind (client.makeRequest_within h.draw) fun request => ?_
  refine Run.within_bind (h.ask _ _) fun state => ?_
  refine Run.within_bind (order.pollChain_within (h.asking _) state) fun chainPem => ?_
  refine Run.within_bind (Run.within_fromState _) fun certificate => ?_
  exact Run.within_bind (hsave certificate) fun _ => Run.within_pure _

end Client

end RegistryFront.Acme
