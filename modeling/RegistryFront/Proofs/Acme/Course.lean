import RegistryFront.Proofs.Acme.Keeping

/-!
# What is asked in a call, and in which order

A run is looked at as what it asks of the authority, in order, together with its result.  Before a
call hands in its request for a certificate it sees an answer that the order is ready, and it hands
in one at most; a certificate comes of it only when the chain is fetched after that.
-/

namespace RegistryFront.Acme

variable {σ α β : Type} {outside : Outside σ}

/-! ## Runs and what they ask -/

namespace Run

/-- Wherever the run starts, what it asks and its result are related so. -/
def Traces (run : Run σ α) (P : List Exchange → Except IssueError α → Prop) : Prop :=
  ∀ state, ∃ made, (run.on state).2.exchanges = state.exchanges ++ made ∧ P made (run.on state).1

variable {run : Run σ α} {P Q : List Exchange → Except IssueError α → Prop}

theorem Traces.mono (h : run.Traces P) (hmore : ∀ made result, P made result → Q made result) :
    run.Traces Q := fun state => by
  obtain ⟨made, hmade, hP⟩ := h state
  exact ⟨made, hmade, hmore _ _ hP⟩

theorem Traces.and (h : run.Traces P) (h' : run.Traces Q) :
    run.Traces fun made result => P made result ∧ Q made result := fun state => by
  obtain ⟨made, hmade, hP⟩ := h state
  obtain ⟨made', hmade', hQ⟩ := h' state
  obtain rfl := List.append_cancel_left (hmade.symm.trans hmade')
  exact ⟨made, hmade, hP, hQ⟩

theorem traces_pure {value : α} (h : P [] (.ok value)) : (pure value : Run σ α).Traces P :=
  fun _ => ⟨[], (List.append_nil _).symm, h⟩

theorem traces_throw {cause : IssueError} (h : P [] (.error cause)) :
    (throw cause : Run σ α).Traces P :=
  fun _ => ⟨[], (List.append_nil _).symm, h⟩

theorem traces_fromState {read : State σ → Except IssueError α} (h : ∀ state, P [] (read state)) :
    (fromState read).Traces P :=
  fun state => ⟨[], (List.append_nil _).symm, h state⟩

theorem traces_draw : (draw (σ := σ)).Traces fun made result =>
    made = [] ∧ ∃ entropy, result = .ok entropy :=
  fun _ => ⟨[], (List.append_nil _).symm, rfl, _, rfl⟩

theorem traces_always {after : State σ → State σ} (h : run.Traces P)
    (hafter : ∀ state, (after state).exchanges = state.exchanges) : (run.always after).Traces P :=
  fun state => by
    obtain ⟨made, hmade, hP⟩ := h state
    exact ⟨made, (hafter _).trans hmade, hP⟩

section Bind

variable {next : α → Run σ β} {Q : List Exchange → Except IssueError β → Prop}

theorem traces_bind (hrun : run.Traces P)
    (hfails : ∀ made cause, P made (.error cause) → Q made (.error cause))
    (hnext : ∀ made value, P made (.ok value) →
      (next value).Traces fun later result => Q (made ++ later) result) :
    (run >>= next).Traces Q := by
  intro state
  obtain ⟨made, hmade, hP⟩ := hrun state
  rw [on_bind]
  rcases hrest : run.on state with ⟨cause | value, middle⟩ <;> rw [hrest] at hmade hP
  · exact ⟨made, hmade, hfails made cause hP⟩
  · obtain ⟨later, hlater, hQ⟩ := hnext made value hP middle
    refine ⟨made ++ later, ?_, hQ⟩
    rw [hlater, hmade, List.append_assoc]

theorem traces_change_bind {step : State σ → State σ} {next : Unit → Run σ β}
    (hstep : ∀ state, (step state).exchanges = state.exchanges) (hnext : (next ()).Traces Q) :
    (change step >>= next).Traces Q := by
  intro state
  obtain ⟨made, hmade, hQ⟩ := hnext (step state)
  rw [hstep] at hmade
  exact ⟨made, hmade, hQ⟩

theorem traces_askOr_bind {wrap : ExchangeError → IssueError} {request : Request}
    {next : request.Answer → Run σ β}
    (hfails : ∀ exposure cause, Q [⟨request, exposure, .error cause⟩] (.error (wrap cause)))
    (hnext : ∀ exposure answer, (next answer).Traces fun later result =>
      Q (⟨request, exposure, .ok answer⟩ :: later) result) :
    (askOr wrap outside request >>= next).Traces Q := by
  intro state
  rw [on_bind, askOr, on_of]
  dsimp only
  cases hanswer : (outside.ask request state.exposure state.outside).1.answer with
  | error cause => exact ⟨_, rfl, hfails _ cause⟩
  | ok answer =>
      obtain ⟨later, hlater, hQ⟩ := hnext state.exposure answer _
      exact ⟨_, hlater.trans (List.append_assoc ..), hQ⟩

end Bind

end Run

theorem Polling.traces_poll {limit : Limit} {once : β → Run σ (Attempt β α)} {first : β}
    {P : List Exchange → Except IssueError (Attempt β α) → Prop}
    (honce : ∀ current, (once current).Traces P) :
    (poll outside limit once first).Traces fun made result => ∀ value, result = .ok value →
      ∃ earlier last, made = earlier ++ last ∧ P last (.ok (.decided value)) := by
  intro state
  rw [poll, Run.on_of]
  fun_induction pollFrom outside limit once 0 limit.nanos first state with
  | case1 attempt left current state cause after hafter =>
      obtain ⟨made, hmade, -⟩ := honce current state
      rw [hafter] at hmade
      exact ⟨made, hmade, fun _ herror => by cases herror⟩
  | case2 attempt left current state value after hafter =>
      obtain ⟨made, hmade, hP⟩ := honce current state
      rw [hafter] at hmade hP
      refine ⟨made, hmade, fun decided hdecided => ⟨[], made, rfl, ?_⟩⟩
      rwa [← Except.ok.inj hdecided]
  | case3 attempt left current state next after hafter needed hleft =>
      obtain ⟨made, hmade, -⟩ := honce current state
      rw [hafter] at hmade
      exact ⟨made, hmade, fun _ herror => by cases herror⟩
  | case4 attempt left current state next after hafter needed hleft ih =>
      obtain ⟨made, hmade, -⟩ := honce current state
      rw [hafter] at hmade
      -- an attempt that does not decide comes before those that follow
      obtain ⟨later, hlater, hdecided⟩ := ih
      refine ⟨made ++ later, ?_, fun value hvalue => ?_⟩
      · rw [hlater, ← List.append_assoc, ← hmade]
        rfl
      · obtain ⟨earlier, last, rfl, hP⟩ := hdecided value hvalue
        exact ⟨made ++ earlier, last, (List.append_assoc ..).symm, hP⟩

/-! ## Requests of a kind -/

def State.Makes (allowed : Request → Prop) (before after : State σ) : Prop :=
  ∃ made, after.exchanges = before.exchanges ++ made ∧ ∀ exchange ∈ made, allowed exchange.request

section

variable {allowed : Request → Prop}

theorem State.makes_of_exchanges {before after : State σ} (h : after.exchanges = before.exchanges) :
    State.Makes allowed before after := ⟨[], by simp [h], by simp⟩

instance : IsPreorder (State σ) (State.Makes allowed) where
  refl _ := State.makes_of_exchanges rfl
  trans := by
    rintro first second third ⟨made, hmade, hallowed⟩ ⟨later, hlater, hallowed'⟩
    refine ⟨made ++ later, by rw [hlater, hmade, List.append_assoc], fun exchange hmem => ?_⟩
    exact (List.mem_append.mp hmem).elim (hallowed exchange) (hallowed' exchange)

theorem makes_allowed (outside : Outside σ) (allowed : Request → Prop) :
    outside.AllowsAsking allowed (State.Makes allowed) where
  ask _ _ hrequest _ := ⟨_, rfl, by simpa using hrequest⟩
  draw _ := State.makes_of_exchanges rfl
  sleep _ _ := State.makes_of_exchanges rfl

theorem Run.Within.traces {run : Run σ α} (h : run.Within (State.Makes allowed)) :
    run.Traces fun made _ => ∀ exchange ∈ made, allowed exchange.request := h

end

namespace Order

variable (order : Order)

def saysReady (ready : OrderState) (exposure : Exposure) : Exchange :=
  ⟨.orderState order.account order.url, exposure, .ok ready⟩

theorem pollReady_traces (outside : Outside σ) :
    (order.pollReady outside).Traces fun made result => ∀ ready, result = .ok ready →
      (ready.status = .ready ∨ ready.status = .valid) ∧
        ∃ earlier exposure, made = earlier ++ [order.saysReady ready exposure] := by
  have hattempt (current : Unit) : (order.readyAttempt outside current).Traces fun made result =>
      ∀ ready, result = .ok (.decided ready) →
        (ready.status = .ready ∨ ready.status = .valid) ∧
          ∃ exposure, made = [order.saysReady ready exposure] := by
    refine Run.traces_askOr_bind (fun _ _ _ => nofun) fun exposure ready => ?_
    cases hstatus : ready.status with
    | ready =>
        refine Run.traces_pure ?_
        rintro _ ⟨⟩
        exact ⟨.inl hstatus, exposure, rfl⟩
    | valid =>
        refine Run.traces_pure ?_
        rintro _ ⟨⟩
        exact ⟨.inr hstatus, exposure, rfl⟩
    | pending => exact Run.traces_pure fun _ => nofun
    | processing => exact Run.traces_pure fun _ => nofun
    | invalid => exact Run.traces_throw fun _ => nofun
  refine (Polling.traces_poll hattempt).mono fun made result h ready hready => ?_
  obtain ⟨earlier, last, rfl, hlast⟩ := h ready hready
  obtain ⟨hstatus, exposure, rfl⟩ := hlast ready rfl
  exact ⟨hstatus, earlier, exposure, rfl⟩

def bringsChain (chainPem url : String) (exposure : Exposure) : Exchange :=
  ⟨.certificate order.account url, exposure, .ok chainPem⟩

theorem pollChain_traces (outside : Outside σ) (state : OrderState) :
    (order.pollChain outside state).Traces fun made result => ∀ chainPem, result = .ok chainPem →
      ∃ url exposure, order.bringsChain chainPem url exposure ∈ made := by
  have hattempt (current : OrderState) : (order.chainAttempt outside current).Traces
      fun made result => ∀ chainPem, result = .ok (.decided chainPem) →
        ∃ url exposure, order.bringsChain chainPem url exposure ∈ made := by
    have hlatest := order.latestState_within (makes_allowed outside _) current
    refine Run.traces_bind hlatest.traces (fun _ _ _ _ => nofun) fun made latest _ => ?_
    split
    · exact Run.traces_throw fun _ => nofun
    · exact Run.traces_pure fun _ => nofun
    · next url _ _ _ =>
        rw [map_eq_pure_bind]
        refine Run.traces_askOr_bind (fun _ _ _ => nofun) fun exposure chainPem => ?_
        refine Run.traces_pure ?_
        rintro _ ⟨⟩
        exact ⟨url, exposure, by simp [bringsChain]⟩
    · exact Run.traces_throw fun _ => nofun
    · exact Run.traces_throw fun _ => nofun
  refine (Polling.traces_poll hattempt).mono fun made result h chainPem hchain => ?_
  obtain ⟨earlier, last, rfl, hlast⟩ := h chainPem hchain
  obtain ⟨url, exposure, hmem⟩ := hlast chainPem rfl
  exact ⟨url, exposure, List.mem_append_right _ hmem⟩

theorem validate_traces (outside : Outside σ) (ports : Ports) :
    (order.validate outside ports).Traces fun made result =>
      (∀ exchange ∈ made, order.Validates exchange.request) ∧ ∀ ready, result = .ok ready →
        (ready.status = .ready ∨ ready.status = .valid) ∧
          ∃ earlier exposure, made = earlier ++ [order.saysReady ready exposure] := by
  have hallows := makes_allowed outside order.Validates
  have hsame {before after : State σ} (h : after.exchanges = before.exchanges) :
      State.Makes order.Validates before after := State.makes_of_exchanges h
  have hpost (domain : String) (challenge : Challenge) (responder : Responder) :
      (order.post domain challenge responder).Within (State.Makes order.Validates) :=
    order.post_within hallows.draw (fun _ _ _ => hsame rfl) (fun _ _ _ => hsame rfl) _ _ _
  have hlisten (responder : Responder) :
      (Order.listen outside ports responder).Within (State.Makes order.Validates) :=
    Order.listen_within (fun _ _ _ => hsame rfl) ports responder
  refine (order.validate_within hallows ports hpost hlisten).traces.and ?_
  have hask (url : String) := hallows.ask .exchange (.authorization order.account url) rfl
  have htell (url : String) := hallows.ask .exchange (.challengeReady order.account url) rfl
  refine Run.traces_bind (order.authorizations_within hask _).traces (fun _ _ _ _ => nofun)
    fun fetching list _ => ?_
  refine Run.traces_bind (order.prepareAll_within ports hpost hlisten list).traces
    (fun _ _ _ _ => nofun) fun preparing urls _ => ?_
  refine Run.traces_bind (order.announce_within htell urls).traces (fun _ _ _ _ => nofun)
    fun telling _ _ => ?_
  refine (order.pollReady_traces outside).mono fun made result h ready hready => ?_
  obtain ⟨hstatus, earlier, exposure, rfl⟩ := h ready hready
  refine ⟨hstatus, fetching ++ (preparing ++ (telling ++ earlier)), exposure, ?_⟩
  simp only [List.append_assoc]

end Order

/-! ## A call -/

namespace Client

variable (client : Client)

def Requests (key : Keys.CurveKey) (csr : List UInt8) : Prop :=
  ∃ names entropy, client.domains.mapM X509.AlternativeName.ofText = .ok names ∧
    X509.request names (.curve key) entropy = .ok csr

def Prepares : Request → Prop
  | .newOrder _ domains => domains = client.domains
  | .finalize .. | .certificate .. => False
  | _ => True

inductive Fetched (order : Order) (ready : OrderState) :
    List Exchange → Except IssueError StoredCertificate → Prop where
  | unasked {cause : IssueError} : Fetched order ready [] (.error cause)
  | handedIn {key : Keys.CurveKey} {csr : List UInt8} {exposure : Exposure}
      {answer : Except ExchangeError OrderState} {later : List Exchange}
      {result : Except IssueError StoredCertificate} (hrequest : client.Requests key csr)
      (hlater : ∀ exchange ∈ later, order.Fetches exchange.request)
      (hresult : ∀ certificate, result = .ok certificate → ∃ chainPem url seen now,
        order.bringsChain chainPem url seen ∈ later ∧
          client.certificateOf chainPem (.curve key) now = .ok certificate) :
      Fetched order ready
        (⟨.finalize order.account ready.finalizeUrl csr, exposure, answer⟩ :: later) result

/-- What is asked in a call up to its save, and what comes of it. -/
inductive Course : List Exchange → Except IssueError StoredCertificate → Prop where
  | unready {made : List Exchange} {cause : IssueError}
      (hmade : ∀ exchange ∈ made, client.Prepares exchange.request) : Course made (.error cause)
  | ready {earlier later : List Exchange} {order : Order} {ready : OrderState}
      {ordered exposure : Exposure} {result : Except IssueError StoredCertificate}
      (hearlier : ∀ exchange ∈ earlier, client.Prepares exchange.request)
      (hordered : ⟨.newOrder order.account client.domains, ordered, .ok (order.url, order.start)⟩ ∈
        earlier)
      (hready : ready.status = .ready ∨ ready.status = .valid)
      (hfetched : client.Fetched order ready later result) :
      Course (earlier ++ order.saysReady ready exposure :: later) result

variable {client}

theorem makeRequest_traces : (client.makeRequest (σ := σ)).Traces fun made result =>
    made = [] ∧ ∀ request, result = .ok request →
      ∃ key, request.1 = .curve key ∧ client.Requests key request.2 := by
  refine Run.traces_bind Run.traces_draw ?_ ?_
  · rintro _ cause ⟨-, entropy, ⟨⟩⟩
  · rintro _ entropy ⟨rfl, -⟩
    dsimp only
    split
    · exact Run.traces_throw ⟨rfl, nofun⟩
    · next names hnames =>
        split
        · exact Run.traces_throw ⟨rfl, nofun⟩
        · next csr hcsr =>
            refine Run.traces_pure ⟨rfl, ?_⟩
            rintro _ ⟨⟩
            exact ⟨_, rfl, names, _, hnames, hcsr⟩

theorem fetch_traces (order : Order) (ready : OrderState) :
    (client.fetch outside order ready).Traces (client.Fetched order ready) := by
  refine Run.traces_bind makeRequest_traces ?_ ?_
  · rintro _ cause ⟨rfl, -⟩
    exact .unasked
  · rintro _ ⟨_, csr⟩ ⟨rfl, hmade⟩
    obtain ⟨key, rfl, hrequest⟩ := hmade _ rfl
    refine Run.traces_askOr_bind (fun exposure cause => ?_) fun exposure state => ?_
    · exact .handedIn hrequest (by simp) fun _ => nofun
    have hpoll := (order.pollChain_traces outside state).and
      (order.pollChain_within (makes_allowed outside _) state).traces
    refine Run.traces_bind hpoll (fun later cause hlater => ?_) fun later chainPem hlater => ?_
    · exact .handedIn hrequest hlater.2 fun _ => nofun
    · obtain ⟨url, seen, hchain⟩ := hlater.1 chainPem rfl
      refine Run.traces_fromState fun state => .handedIn hrequest ?_ fun certificate hresult => ?_
      · simpa using hlater.2
      · exact ⟨chainPem, url, seen, state.wall, by simpa using hchain, hresult⟩

theorem makes_allowsAccount (allowed : Request → Prop) :
    client.AllowsAccount (State.Makes (σ := σ) allowed) where
  save _ _ := State.makes_of_exchanges rfl
  keep _ _ := State.makes_of_exchanges rfl

theorem obtainAccount_traces : (client.obtainAccount outside).Traces fun made _ =>
    ∀ exchange ∈ made, client.Prepares exchange.request := by
  have hallows := makes_allowed outside client.Prepares
  refine (client.obtainAccount_within (hallows.mono fun request hrequest => ?_)
    (makes_allowsAccount _)).traces
  cases request <;> trivial

theorem Prepares.of_validates {order : Order} {request : Request} (h : order.Validates request) :
    client.Prepares request := by
  cases request <;> trivial

theorem procure_traces (client : Client) (outside : Outside σ) :
    (client.procure outside).Traces client.Course := by
  refine Run.traces_change_bind (fun _ => rfl) ?_
  refine Run.traces_bind obtainAccount_traces (fun made cause hmade => .unready hmade)
    fun registering account hregistering => ?_
  rw [newOrder, bind_assoc]
  have hbefore (exposure : Exposure) (answer : Except ExchangeError (String × OrderState))
      {later : List Exchange} (hlater : ∀ exchange ∈ later, client.Prepares exchange.request) :
      ∀ exchange ∈ registering ++ ⟨.newOrder account client.domains, exposure, answer⟩ :: later,
        client.Prepares exchange.request :=
    List.forall_mem_append.mpr ⟨hregistering, List.forall_mem_cons.mpr ⟨rfl, hlater⟩⟩
  refine Run.traces_askOr_bind (fun exposure cause => .unready (hbefore exposure _ (by simp)))
    fun ordered answer => ?_
  obtain ⟨url, start⟩ := answer
  rw [pure_bind]
  have hvalidated := Order.validate_traces ⟨account, url, start⟩ outside client.ports
  refine Run.traces_bind (Run.traces_always hvalidated fun _ => rfl)
    (fun made cause hmade => .unready ?_) fun made ready hmade => ?_
  · exact hbefore ordered _ fun exchange hmem => .of_validates (hmade.1 exchange hmem)
  · obtain ⟨hvalidates, hready⟩ := hmade
    obtain ⟨hstatus, earlier, exposure, rfl⟩ := hready ready rfl
    refine (fetch_traces _ ready).mono fun later result hfetched => ?_
    have hearlier := hbefore ordered (.ok (url, start)) fun exchange hmem =>
      Prepares.of_validates (hvalidates exchange (List.mem_append_left _ hmem))
    have hcourse : client.Course (_ ++ Order.saysReady _ ready exposure :: later) result :=
      .ready hearlier (List.mem_append_right _ List.mem_cons_self) hstatus hfetched
    simpa using hcourse

end Client

end RegistryFront.Acme
