import RegistryFront.Proofs.Acme.Validation

/-!
# The pace of asking again

All attempts of a poll are kept, each with the state it began in and what it came to.  From the
course they take it is read off how many there are, when they begin and how the poll ends.
-/

namespace RegistryFront.Acme

variable {σ : Type} {outside : Outside σ}

namespace Polling

variable {α β : Type} {limit : Limit} {once : β → Run σ (Attempt β α)}

/-! ## The waits -/

theorem delaySeconds_eq (n : Nat) : delaySeconds n = [1, 2, 4, 8].getD n 10 := by
  match n with
  | 0 | 1 | 2 | 3 => rfl
  | n + 4 =>
      have hpow : 10 ≤ 2 ^ (n + 4) := by
        have hone : 1 ≤ 2 ^ n := Nat.one_le_two_pow
        rw [Nat.pow_add]
        omega
      exact Nat.min_eq_right hpow

theorem delay_le (n : Nat) : delay n ≤ 10 * nanosPerSecond :=
  Nat.mul_le_mul_right _ (Nat.min_le_right _ _)

def waitedSeconds : Nat → Nat
  | 0 => 0
  | n + 1 => waitedSeconds n + delaySeconds n

theorem waitedSeconds_add_four (n : Nat) : waitedSeconds (n + 4) = 15 + 10 * n := by
  induction n with
  | zero => rfl
  | succ n ih =>
      rw [Nat.add_right_comm, waitedSeconds, ih, delaySeconds_eq]
      change 15 + 10 * n + 10 = _
      omega

/-! ## Attempts and the course they take -/

structure Try (σ β α : Type) where
  current : β
  before : State σ
  outcome : Except IssueError (Attempt β α)
  after : State σ

inductive Course (outside : Outside σ) (limit : Limit) (once : β → Run σ (Attempt β α))
    (deadline : Nat) :
    Nat → β → State σ → List (Try σ β α) → Except IssueError α → State σ → Prop
  | failed {attempt current before cause after}
      (hmade : (once current).on before = (.error cause, after)) :
      Course outside limit once deadline attempt current before
        [⟨current, before, .error cause, after⟩] (.error cause) after
  | decided {attempt current before value after}
      (hmade : (once current).on before = (.ok (.decided value), after)) :
      Course outside limit once deadline attempt current before
        [⟨current, before, .ok (.decided value), after⟩] (.ok value) after
  | exceeded {attempt current before next after}
      (hmade : (once current).on before = (.ok (.undecided next), after))
      (hlate : deadline < after.elapsed + delay attempt) :
      Course outside limit once deadline attempt current before
        [⟨current, before, .ok (.undecided next), after⟩] (.error limit.exceeded) after
  | waited {attempt current before next after tries result final}
      (hmade : (once current).on before = (.ok (.undecided next), after))
      (hearly : after.elapsed + delay attempt ≤ deadline)
      (hrest : Course outside limit once deadline (attempt + 1) next
        (after.slept outside (delay attempt)) tries result final) :
      Course outside limit once deadline attempt current before
        (⟨current, before, .ok (.undecided next), after⟩ :: tries) result final

def Later (before after : State σ) : Prop := before.elapsed ≤ after.elapsed

theorem course_of_pollFrom (hclock : ∀ current, (once current).Within Later)
    (attempt left : Nat) (current : β) (state : State σ) :
    ∃ tries, Course outside limit once (state.elapsed + left) attempt current state tries
      (pollFrom outside limit once attempt left current state).1
      (pollFrom outside limit once attempt left current state).2 := by
  fun_induction pollFrom outside limit once attempt left current state with
  | case1 attempt left current state cause after hafter => exact ⟨_, .failed hafter⟩
  | case2 attempt left current state value after hafter => exact ⟨_, .decided hafter⟩
  | case3 attempt left current state next after hafter needed hleft =>
      have hlater : Later state after := by simpa [hafter] using hclock current state
      refine ⟨_, .exceeded hafter ?_⟩
      dsimp only [Later] at hlater ⊢
      omega
  | case4 attempt left current state next after hafter needed hleft ih =>
      have hlater : Later state after := by simpa [hafter] using hclock current state
      dsimp only [Later] at hlater
      obtain ⟨tries, hrest⟩ := ih
      have hdeadline : (after.slept outside (delay attempt)).elapsed + (left - needed) =
          state.elapsed + left := by
        change after.elapsed + delay attempt + (left - needed) = _
        omega
      rw [hdeadline] at hrest
      exact ⟨_, .waited hafter (by omega) hrest⟩

namespace Course

variable {deadline attempt : Nat} {current : β} {before final : State σ}
  {tries : List (Try σ β α)} {result : Except IssueError α}

theorem made (h : Course outside limit once deadline attempt current before tries result final) :
    ∀ one ∈ tries, (once one.current).on one.before = (one.outcome, one.after) := by
  induction h with
  | failed hmade => simpa using hmade
  | decided hmade => simpa using hmade
  | exceeded hmade _ => simpa using hmade
  | waited hmade _ _ ih => exact List.forall_mem_cons.mpr ⟨hmade, ih⟩

theorem begins (h : Course outside limit once deadline attempt current before tries result final) :
    ∃ one rest, tries = one :: rest ∧ one.current = current ∧ one.before = before := by
  cases h <;> exact ⟨_, _, rfl, rfl, rfl⟩

theorem waits (h : Course outside limit once deadline attempt current before tries result final)
    (n : Nat) {one other : Try σ β α} (hone : tries[n]? = some one)
    (hother : tries[n + 1]? = some other) :
    one.outcome = .ok (.undecided other.current) ∧
      other.before = one.after.slept outside (delay (attempt + n)) := by
  induction h generalizing n with
  | failed | decided | exceeded => simp at hother
  | waited _ _ hrest ih =>
      cases n with
      | zero =>
          obtain ⟨first, rest, rfl, rfl, hbefore⟩ := hrest.begins
          cases hone
          cases hother
          exact ⟨rfl, hbefore⟩
      | succ n =>
          rw [show ∀ k, k + (n + 1) = k + 1 + n by omega]
          exact ih n hone hother

theorem timely (h : Course outside limit once deadline attempt current before tries result final)
    (hbefore : before.elapsed ≤ deadline) : ∀ one ∈ tries, one.before.elapsed ≤ deadline := by
  induction h with
  | failed | decided | exceeded => simpa using hbefore
  | waited _ hearly _ ih => exact List.forall_mem_cons.mpr ⟨hbefore, ih hearly⟩

theorem begun (h : Course outside limit once deadline attempt current before tries result final)
    (hclock : ∀ current, (once current).Within Later) (n : Nat) {one : Try σ β α}
    (hone : tries[n]? = some one) :
    before.elapsed + waitedSeconds (attempt + n) * nanosPerSecond ≤
      one.before.elapsed + waitedSeconds attempt * nanosPerSecond := by
  induction h generalizing n with
  | failed | decided | exceeded =>
      cases n with
      | zero => cases hone; exact Nat.le_refl _
      | succ n => simp at hone
  | @waited attempt current before next after tries result final hmade _ hrest ih =>
      cases n with
      | zero =>
          cases hone
          exact Nat.le_refl _
      | succ n =>
          have hlater : Later before after := by simpa [hmade] using hclock current before
          have hnext := ih n hone
          change after.elapsed + delay attempt + _ ≤ _ at hnext
          rw [Nat.add_right_comm attempt 1 n, waitedSeconds.eq_2 attempt, Nat.add_mul, delay] at hnext
          rw [← Nat.add_assoc]
          dsimp only [Later] at hlater
          omega

theorem ends (h : Course outside limit once deadline attempt current before tries result final) :
    ∃ last, tries.getLast? = some last ∧ last.after = final ∧
      match last.outcome with
      | .error cause => result = .error cause
      | .ok (.decided value) => result = .ok value
      | .ok (.undecided _) =>
          result = .error limit.exceeded ∧ deadline < final.elapsed + 10 * nanosPerSecond := by
  induction h with
  | failed hmade => exact ⟨_, rfl, rfl, rfl⟩
  | decided hmade => exact ⟨_, rfl, rfl, rfl⟩
  | exceeded hmade hlate =>
      exact ⟨_, rfl, rfl, rfl, Nat.lt_of_lt_of_le hlate (Nat.add_le_add_left (delay_le _) _)⟩
  | waited _ _ hrest ih =>
      obtain ⟨last, hlast, hends⟩ := ih
      exact ⟨last, by rw [List.getLast?_cons, hlast]; rfl, hends⟩

end Course

/-! ## Polls that keep the pace -/

/-- These were the attempts of a poll from `start` to `final`, in order: the first began at once and
each of the others after a wait, when the one before it was undecided and the limit not yet reached.
An attempt that decides or fails is the last one, and the poll ends with what it came to. -/
structure Paced (outside : Outside σ) (limit : Limit) (once : β → Run σ (Attempt β α)) (first : β)
    (start final : State σ) (result : Except IssueError α) (tries : List (Try σ β α)) : Prop where
  made : ∀ one ∈ tries, (once one.current).on one.before = (one.outcome, one.after)
  begins : ∃ one rest, tries = one :: rest ∧ one.current = first ∧ one.before = start
  waits : ∀ n one other, tries[n]? = some one → tries[n + 1]? = some other →
    one.outcome = .ok (.undecided other.current) ∧
      other.before = one.after.slept outside ([1, 2, 4, 8].getD n 10 * nanosPerSecond)
  timely : ∀ one ∈ tries, one.before.elapsed ≤ start.elapsed + limit.nanos
  decides : ∀ n one, tries[n]? = some one → ∀ value : Except IssueError α,
    one.outcome = value.map .decided → tries.length = n + 1 ∧ one.after = final ∧ result = value
  ends : ∃ last, tries.getLast? = some last ∧ last.after = final ∧
    ∀ next, last.outcome = .ok (.undecided next) → result = .error limit.exceeded ∧
      start.elapsed + limit.nanos < final.elapsed + 10 * nanosPerSecond

theorem Course.paced {first : β} {start final : State σ} {result : Except IssueError α}
    {tries : List (Try σ β α)}
    (h : Course outside limit once (start.elapsed + limit.nanos) 0 first start tries result final) :
    Paced outside limit once first start final result tries where
  made := h.made
  begins := h.begins
  waits n one other hone hother := by
    have hwaits := h.waits n hone hother
    rwa [Nat.zero_add, delay, delaySeconds_eq] at hwaits
  timely := h.timely (Nat.le_add_right _ _)
  decides n one hone value hvalue := by
    have hlast : tries[n + 1]? = none := by
      rcases hother : tries[n + 1]? with _ | other
      · rfl
      · rw [(h.waits n hone hother).1] at hvalue
        cases value <;> cases hvalue
    have hlength : tries.length = n + 1 := by
      have hlt := (List.getElem?_eq_some_iff.mp hone).1
      have hle := List.getElem?_eq_none_iff.mp hlast
      omega
    obtain ⟨last, hgetLast, hfinal, hends⟩ := h.ends
    rw [List.getLast?_eq_getElem?, hlength, Nat.add_sub_cancel, hone] at hgetLast
    cases hgetLast
    rw [hvalue] at hends
    refine ⟨hlength, hfinal, ?_⟩
    cases value <;> exact hends
  ends := by
    obtain ⟨last, hlast, hfinal, hends⟩ := h.ends
    refine ⟨last, hlast, hfinal, fun next hnext => ?_⟩
    rwa [hnext] at hends

theorem ten_mul_le_waitedSeconds (n : Nat) : 10 * n ≤ waitedSeconds n + 25 := by
  match n with
  | 0 | 1 | 2 | 3 => decide
  | n + 4 =>
      rw [waitedSeconds_add_four]
      omega

theorem Course.length_le {first : β} {start final : State σ} {result : Except IssueError α}
    {tries : List (Try σ β α)}
    (h : Course outside limit once (start.elapsed + limit.nanos) 0 first start tries result final)
    (hclock : ∀ current, (once current).Within Later) :
    10 * tries.length ≤ limit.seconds + 35 := by
  obtain ⟨last, hlast, -⟩ := h.ends
  have htimely := h.timely (Nat.le_add_right _ _) last (List.mem_of_getLast? hlast)
  rw [List.getLast?_eq_getElem?] at hlast
  have hbegun := h.begun hclock _ hlast
  have hwaited : waitedSeconds (tries.length - 1) * nanosPerSecond ≤
      limit.seconds * nanosPerSecond := by
    rw [Nat.zero_add] at hbegun
    dsimp only [waitedSeconds, Limit.nanos] at hbegun htimely
    omega
  have hseconds := Nat.le_of_mul_le_mul_right hwaited (by decide)
  have hcount := ten_mul_le_waitedSeconds (tries.length - 1)
  omega

theorem Paced.of_timeout {first : β} {start final : State σ} {result : Except IssueError α}
    {tries : List (Try σ β α)} (h : Paced outside limit once first start final result tries)
    {span : Time.Span} {text : String}
    (hother : ∀ one ∈ tries, one.outcome ≠ .error (.timeout span text))
    (hresult : result = .error (.timeout span text)) :
    (∀ one ∈ tries, ∃ next, one.outcome = .ok (.undecided next)) ∧
      start.elapsed + limit.nanos < final.elapsed + 10 * nanosPerSecond := by
  have hundecided : ∀ one ∈ tries, ∃ next, one.outcome = .ok (.undecided next) := by
    intro one hone
    obtain ⟨n, hn⟩ := List.mem_iff_getElem?.mp hone
    rcases houtcome : one.outcome with cause | ⟨next⟩ | value
    · obtain ⟨-, -, hcause⟩ := h.decides n one hn (.error cause) houtcome
      cases hcause.symm.trans hresult
      exact absurd houtcome (hother one hone)
    · exact ⟨next, rfl⟩
    · obtain ⟨-, -, hvalue⟩ := h.decides n one hn (.ok value) houtcome
      cases hvalue.symm.trans hresult
  obtain ⟨last, hlast, -, hends⟩ := h.ends
  obtain ⟨next, hnext⟩ := hundecided last (List.mem_of_getLast? hlast)
  exact ⟨hundecided, (hends next hnext).2⟩

end Polling

namespace Order

open Polling (Course Later Paced Try)

variable (order : Order)

/-! ## What an attempt comes to -/

instance : IsPreorder (State σ) Later where
  refl _ := Nat.le_refl _
  trans _ _ _ := Nat.le_trans

theorem allowsAsking_later (outside : Outside σ) (asked : Request → Prop) :
    outside.AllowsAsking asked Later where
  ask _ _ _ state := Nat.le_add_right state.elapsed _
  draw state := Nat.le_refl state.elapsed
  sleep _ state := Nat.le_add_right state.elapsed _

def readiness : Except ExchangeError OrderState → Except IssueError (Attempt Unit OrderState)
  | .error cause => .error (.exchange cause)
  | .ok state =>
      match state.status with
      | .ready | .valid => .ok (.decided state)
      | .invalid => .error (.orderInvalid (invalidDetail state))
      | .pending | .processing => .ok (.undecided ())

theorem readiness_ne_timeout (answer : Except ExchangeError OrderState) (span : Time.Span)
    (text : String) : readiness answer ≠ .error (.timeout span text) := by
  unfold readiness
  split
  · nofun
  · split <;> nofun

theorem ask_on (outside : Outside σ) (request : Request) (state : State σ) :
    ∃ answer asked, (Run.ask outside request).on state = (answer.mapError .exchange, asked) ∧
      asked.exposure = state.exposure ∧
      asked.exchanges = state.exchanges ++ [⟨request, state.exposure, answer⟩] :=
  ⟨(outside.ask request state.exposure state.outside).1.answer, _, rfl, rfl, rfl⟩

theorem readyAttempt_on (outside : Outside σ) {current : Unit} {before after : State σ}
    {outcome : Except IssueError (Attempt Unit OrderState)}
    (h : (readyAttempt outside order current).on before = (outcome, after)) :
    ∃ answer : Except ExchangeError OrderState,
      outcome = readiness answer ∧ after.exposure = before.exposure ∧
      after.exchanges =
        before.exchanges ++ [⟨.orderState order.account order.url, before.exposure, answer⟩] := by
  obtain ⟨answer, asked, hask, hexposure, hexchanges⟩ :=
    ask_on outside (.orderState order.account order.url) before
  have hon : (readyAttempt outside order current).on before = (readiness answer, asked) := by
    rw [readyAttempt, Run.on_bind, hask]
    cases answer with
    | error cause => rfl
    | ok state =>
        obtain ⟨status, urls, problem, finalizeUrl, certificateUrl⟩ := state
        cases status <;> rfl
  obtain ⟨rfl, rfl⟩ := Prod.mk.inj (hon.symm.trans h)
  exact ⟨answer, rfl, hexposure, hexchanges⟩

theorem answers_of_course {deadline attempt : Nat} {limit : Polling.Limit} {current : Unit}
    {before final : State σ} {tries : List (Try σ Unit OrderState)}
    {result : Except IssueError OrderState}
    (h : Course outside limit (readyAttempt outside order) deadline attempt current before tries
      result final) :
    ∃ answers : List (Except ExchangeError OrderState),
      tries.map Try.outcome = answers.map readiness ∧
      final.exchanges = before.exchanges ++ answers.map fun answer =>
        ⟨.orderState order.account order.url, before.exposure, answer⟩ := by
  induction h with
  | failed hmade | decided hmade | exceeded hmade =>
      obtain ⟨answer, houtcome, -, hexchanges⟩ := order.readyAttempt_on outside hmade
      exact ⟨[answer], by simp [houtcome], by simpa using hexchanges⟩
  | @waited attempt _ before _ after _ _ _ hmade _ _ ih =>
      obtain ⟨answer, houtcome, hexposure, hexchanges⟩ := order.readyAttempt_on outside hmade
      obtain ⟨answers, houtcomes, hmore⟩ := ih
      have hslept : (after.slept outside (Polling.delay attempt)).exposure = before.exposure :=
        hexposure
      refine ⟨answer :: answers, by simp [houtcome, houtcomes], ?_⟩
      rw [hslept] at hmore
      refine hmore.trans ?_
      change after.exchanges ++ _ = _
      rw [hexchanges, List.append_assoc]
      rfl

/-- What an attempt to fetch the chain goes by: it is undecided when the authority has just answered
that it is still at work, it gives the chain that was answered, and otherwise it fails with a fault
of the exchange. -/
def FetchesChain (order : Order) (one : Try σ OrderState String) : Prop :=
  match one.outcome with
  | .ok (.undecided next) => next.status = .processing ∧ next.problem = none ∧
      one.after.exchanges = one.before.exchanges ++
        [⟨.orderState order.account order.url, one.before.exposure, .ok next⟩]
  | .ok (.decided text) => ∃ url, one.after.exchanges.getLast? =
      some ⟨.certificate order.account url, one.before.exposure, .ok text⟩
  | .error cause => ∃ fault, cause = .exchange fault

theorem latestState_on (outside : Outside σ) (state : OrderState) (before : State σ) :
    ∃ (answer : Except ExchangeError OrderState) (known : State σ),
      (latestState outside order state).on before = (answer.mapError .exchange, known) ∧
      known.exposure = before.exposure ∧
      ∀ latest, answer = .ok latest → latest.status = .processing →
        known.exchanges = before.exchanges ++
          [⟨.orderState order.account order.url, before.exposure, .ok latest⟩] := by
  unfold latestState
  split
  · obtain ⟨answer, known, hask, hexposure, hexchanges⟩ :=
      ask_on outside (.orderState order.account order.url) before
    refine ⟨answer, known, hask, hexposure, ?_⟩
    rintro latest rfl -
    exact hexchanges
  · next hstatus =>
      refine ⟨.ok state, before, rfl, rfl, ?_⟩
      rintro _ ⟨⟩ hprocessing
      exact absurd hprocessing hstatus

theorem fetchesChain_of_made {one : Try σ OrderState String}
    (h : (chainAttempt outside order one.current).on one.before = (one.outcome, one.after)) :
    order.FetchesChain one := by
  obtain ⟨current, before, outcome, after⟩ := one
  obtain ⟨answer, known, hlatest, hexposure, hexchanges⟩ :=
    order.latestState_on outside current before
  dsimp only at h
  rw [chainAttempt, Run.on_bind, hlatest] at h
  cases answer with
  | error fault =>
      cases h
      exact ⟨fault, rfl⟩
  | ok latest =>
      have hknown := hexchanges latest rfl
      have hfound : (Except.ok latest : Except ExchangeError OrderState).mapError
        IssueError.exchange = .ok latest := rfl
      rw [hfound] at h
      dsimp only at h
      split at h
      · cases h
        exact ⟨_, rfl⟩
      · next hproblem hstatus =>
          cases h
          exact ⟨hstatus, hproblem, hknown hstatus⟩
      · next url _ _ _ =>
          obtain ⟨answer, asked, hask, -, hasked⟩ :=
            ask_on outside (.certificate order.account url) known
          rw [map_eq_pure_bind, Run.on_bind, hask] at h
          cases answer with
          | error fault =>
              cases h
              exact ⟨fault, rfl⟩
          | ok text =>
              cases h
              exact ⟨url, by rw [hasked, hexposure]; exact List.getLast?_concat⟩
      · cases h
        exact ⟨_, rfl⟩
      · cases h
        exact ⟨_, rfl⟩

/-! ## Both waits of an order -/

/-- The wait for an order to be ready and the wait for its chain, whatever the authority answers and
however long it takes.  Each keeps the pace of its limit, of 300 and 120 seconds, with no more than
33 and 15 attempts.  An attempt of the first is one question after the order, and what it comes to
is what the answer means; an attempt of the second is undecided when the authority is at work on
the order.  It is the limit that ends them only when no attempt decided anything and more than 290
and 110 seconds have passed. -/
theorem polling_is_paced (outside : Outside σ) (order : Order) (start : State σ) :
    (∃ (tries : List (Try σ Unit OrderState)) (answers : List (Except ExchangeError OrderState)),
      Paced outside Polling.validation (readyAttempt outside order) () start
        ((pollReady outside order).on start).2 ((pollReady outside order).on start).1 tries ∧
      tries.length ≤ 33 ∧ tries.map Try.outcome = answers.map readiness ∧
      ((pollReady outside order).on start).2.exchanges =
        start.exchanges ++ answers.map (fun answer =>
          ⟨.orderState order.account order.url, start.exposure, answer⟩) ∧
      ∀ span text, ((pollReady outside order).on start).1 = .error (.timeout span text) →
        (∀ one ∈ tries, ∃ next, one.outcome = .ok (.undecided next)) ∧
        start.elapsed + 290 * Polling.nanosPerSecond <
          ((pollReady outside order).on start).2.elapsed) ∧
    ∀ state, ∃ tries,
      Paced outside Polling.issuance (chainAttempt outside order) state start
        ((pollChain outside order state).on start).2 ((pollChain outside order state).on start).1
        tries ∧
      tries.length ≤ 15 ∧ (∀ one ∈ tries, order.FetchesChain one) ∧
      ∀ span text, ((pollChain outside order state).on start).1 = .error (.timeout span text) →
        (∀ one ∈ tries, ∃ next, one.outcome = .ok (.undecided next)) ∧
        start.elapsed + 110 * Polling.nanosPerSecond <
          ((pollChain outside order state).on start).2.elapsed := by
  constructor
  · have hclock : ∀ current, (readyAttempt outside order current).Within Later :=
      order.readyAttempt_within ((allowsAsking_later outside fun _ => True).ask _ _ trivial)
    obtain ⟨tries, hcourse⟩ :=
      Polling.course_of_pollFrom hclock 0 Polling.validation.nanos () start
    obtain ⟨answers, houtcomes, hexchanges⟩ := order.answers_of_course hcourse
    have hpaced : Paced outside Polling.validation (readyAttempt outside order) () start
        ((pollReady outside order).on start).2 ((pollReady outside order).on start).1 tries :=
      hcourse.paced
    have hcount := hcourse.length_le hclock
    refine ⟨tries, answers, hpaced, ?_, houtcomes, hexchanges, fun span text htimeout => ?_⟩
    · dsimp only [Polling.validation] at hcount
      omega
    · have hother : ∀ one ∈ tries, one.outcome ≠ .error (.timeout span text) := by
        intro one hone htimeout
        obtain ⟨answer, -, hanswer⟩ := List.mem_map.mp
          (houtcomes ▸ List.mem_map_of_mem (f := Try.outcome) hone)
        exact readiness_ne_timeout answer span text (hanswer.trans htimeout)
      obtain ⟨hundecided, hlate⟩ := hpaced.of_timeout hother htimeout
      refine ⟨hundecided, ?_⟩
      dsimp only [Polling.Limit.nanos, Polling.validation, Polling.nanosPerSecond] at hlate ⊢
      omega
  · intro state
    have hclock : ∀ current, (chainAttempt outside order current).Within Later :=
      order.chainAttempt_within (allowsAsking_later outside _)
    obtain ⟨tries, hcourse⟩ :=
      Polling.course_of_pollFrom hclock 0 Polling.issuance.nanos state start
    have hpaced : Paced outside Polling.issuance (chainAttempt outside order) state start
        ((pollChain outside order state).on start).2 ((pollChain outside order state).on start).1
        tries := hcourse.paced
    have hcount := hcourse.length_le hclock
    have hfetches : ∀ one ∈ tries, order.FetchesChain one :=
      fun one hone => order.fetchesChain_of_made (hpaced.made one hone)
    refine ⟨tries, hpaced, ?_, hfetches, fun span text htimeout => ?_⟩
    · dsimp only [Polling.issuance] at hcount
      omega
    · have hother : ∀ one ∈ tries, one.outcome ≠ .error (.timeout span text) := by
        intro one hone htimeout
        have hfetch := hfetches one hone
        rw [FetchesChain, htimeout] at hfetch
        obtain ⟨fault, hfault⟩ := hfetch
        cases hfault
      obtain ⟨hundecided, hlate⟩ := hpaced.of_timeout hother htimeout
      refine ⟨hundecided, ?_⟩
      dsimp only [Polling.Limit.nanos, Polling.issuance, Polling.nanosPerSecond] at hlate ⊢
      omega

end Order

end RegistryFront.Acme
