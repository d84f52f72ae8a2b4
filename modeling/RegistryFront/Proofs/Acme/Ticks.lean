import RegistryFront.Proofs.Acme.Kept

/-!
# A look at every tick

As long as each look is over when the next one is to begin, the looks of a run begin at the multiples
of the period after its start, whatever they come to; a look that panics is the last one.
-/

namespace RegistryFront.Acme

variable {σ : Type}

theorem State.elapsed_waitedUntil (outside : Outside σ) {state : State σ} {time : Nat}
    (h : state.elapsed ≤ time) : (state.waitedUntil outside time).elapsed = time := by
  unfold waitedUntil
  split
  · change state.elapsed + (time - state.elapsed) = time
    omega
  · omega

namespace Ticks

/-! ## A run without end -/

section

variable (outside : Outside σ) (check : Run σ Bool) (period : Nat) (start : State σ)

def time (n : Nat) : Nat := start.elapsed + (n + 1) * period

def waiting : Nat → State σ
  | 0 => start
  | n + 1 => (check.on ((waiting n).waitedUntil outside (time period start n))).2

def look (n : Nat) : Except IssueError Bool × State σ :=
  check.on ((waiting outside check period start n).waitedUntil outside (time period start n))

theorem time_lt_time {period : Nat} (h : 0 < period) {m n : Nat} (hmn : m < n) :
    time period start m < time period start n := by
  have hmul : (m + 1) * period < (n + 1) * period := Nat.mul_lt_mul_of_pos_right (by omega) h
  simp only [time]
  omega

theorem time_le_time {m n : Nat} (hmn : m ≤ n) : time period start m ≤ time period start n := by
  have hmul : (m + 1) * period ≤ (n + 1) * period := Nat.mul_le_mul_right _ (by omega)
  simp only [time]
  omega

/-- Each look that begins before the limit is over when the next one is to begin. -/
def Brief (limit : Nat) : Prop :=
  ∀ n, time period start n < limit →
    (look outside check period start n).2.elapsed ≤ time period start (n + 1)

end

/-! ## The looks of a run -/

variable {outside : Outside σ} {check : Run σ Bool} {period : Period} {start : State σ} {limit : Nat}

theorem checksFrom_of_early {begin tick : Nat} {state : State σ}
    (h : state.elapsed ≤ begin + tick * period.nanos) :
    (checksFrom outside check period begin limit tick state).1 =
      if begin + tick * period.nanos < limit then
        let made := check.on (state.waitedUntil outside (begin + tick * period.nanos))
        ⟨begin + tick * period.nanos, made.1⟩ ::
          if panics made.1 then []
          else (checksFrom outside check period begin limit (tick + 1) made.2).1
      else [] := by
  rw [checksFrom]
  simp only [State.elapsed_waitedUntil outside h, or_self]
  by_cases hlimit : begin + tick * period.nanos < limit
  · rw [if_neg (Nat.not_le.mpr hlimit), if_pos hlimit]
    dsimp only
    cases panics (check.on (state.waitedUntil outside (begin + tick * period.nanos))).1 <;> rfl
  · rw [if_pos (Nat.not_lt.mp hlimit), if_neg hlimit]

/-- From any of them on, the looks of a run are those of the run without end, up to the limit and to
the first panic. -/
theorem checksFrom_getElem? (hbrief : Brief outside check period.nanos start limit) (n k : Nat)
    (hwaiting : (waiting outside check period.nanos start k).elapsed ≤ time period.nanos start k) :
    (checksFrom outside check period start.elapsed limit (k + 1)
      (waiting outside check period.nanos start k)).1[n]? =
        if time period.nanos start (k + n) < limit ∧
            ∀ m < n, panics (look outside check period.nanos start (k + m)).1 = false then
          some ⟨time period.nanos start (k + n), (look outside check period.nanos start (k + n)).1⟩
        else none := by
  -- a look that is over in time leaves a state in which the next tick is still to come
  induction n generalizing k with
  | zero =>
      rw [checksFrom_of_early hwaiting]
      split
      · next hlimit => exact (if_pos ⟨hlimit, nofun⟩).symm
      · next hlimit => exact (if_neg fun h => hlimit h.1).symm
  | succ n ih =>
      rw [checksFrom_of_early hwaiting]
      split
      · next hlimit =>
          have hrest := ih (k + 1) (hbrief k hlimit)
          simp only [Nat.add_right_comm k 1] at hrest
          simp only [List.getElem?_cons_succ, Nat.forall_lt_succ_left, ← Nat.add_assoc, Nat.add_zero]
          split
          · next hpanics =>
              exact (if_neg fun h => absurd hpanics (Bool.eq_false_iff.mp h.2.1)).symm
          · next hcalm =>
              have hfirst : panics (look outside check period.nanos start k).1 = false :=
                Bool.eq_false_iff.mpr hcalm
              refine hrest.trans ?_
              simp only [hfirst, true_and]
      · next hlimit =>
          have hlater := time_le_time period.nanos start (Nat.le_add_right k (n + 1))
          exact (if_neg fun hearly => hlimit (Nat.lt_of_le_of_lt hlater hearly.1)).symm

theorem runUntil_getElem? (hbrief : Brief outside check period.nanos start limit) (n : Nat) :
    (runUntil outside check period limit start).1[n]? =
      if time period.nanos start n < limit ∧
          ∀ m < n, panics (look outside check period.nanos start m).1 = false then
        some ⟨time period.nanos start n, (look outside check period.nanos start n).1⟩
      else none := by
  have hfirst : start.elapsed ≤ time period.nanos start 0 := Nat.le_add_right _ _
  have hlooks := checksFrom_getElem? hbrief n 0 hfirst
  simp only [Nat.zero_add] at hlooks
  exact hlooks

theorem pairwise_startedAt (hbrief : Brief outside check period.nanos start limit) :
    (runUntil outside check period limit start).1.Pairwise (·.startedAt < ·.startedAt) := by
  rw [List.pairwise_iff_getElem]
  intro m n hm hn hmn
  have hstarted {k : Nat} (hk : k < (runUntil outside check period limit start).1.length) :
      (runUntil outside check period limit start).1[k].startedAt = time period.nanos start k := by
    have hlook := runUntil_getElem? hbrief k
    rw [List.getElem?_eq_getElem hk] at hlook
    split at hlook
    · rw [Option.some.inj hlook]
    · cases hlook
  rw [hstarted hm, hstarted hn]
  exact time_lt_time start period.nanos_pos hmn

theorem exists_startedAt_iff (hbrief : Brief outside check period.nanos start limit) {moment : Nat} :
    (∃ one ∈ (runUntil outside check period limit start).1, one.startedAt = moment) ↔
      moment < limit ∧ ∃ k, 0 < k ∧ moment = start.elapsed + k * period.nanos ∧
        ∀ m, m + 1 < k → panics (look outside check period.nanos start m).1 = false := by
  simp only [List.mem_iff_getElem?, runUntil_getElem? hbrief, Option.ite_none_right_eq_some,
    Option.some.injEq]
  constructor
  · rintro ⟨_, ⟨n, ⟨hlimit, hcalm⟩, rfl⟩, rfl⟩
    exact ⟨hlimit, n + 1, Nat.succ_pos n, rfl, fun m hm => hcalm m (Nat.lt_of_succ_lt_succ hm)⟩
  · rintro ⟨hlimit, k, hk, rfl, hcalm⟩
    obtain ⟨n, rfl⟩ := Nat.exists_eq_succ_of_ne_zero hk.ne'
    exact ⟨_, ⟨n, ⟨hlimit, fun m hm => hcalm m (Nat.succ_lt_succ hm)⟩, rfl⟩, rfl⟩

/-- A run looks at the multiples of its period and at no other time, once each, and whatever one look
comes to the next one is made at its own time.  Only a panic ends the run. -/
theorem runUntil_looks (outside : Outside σ) (check : Run σ Bool) (requested limit : Nat)
    (start : State σ)
    (hbrief : Brief outside check (max requested (Period.hours 1)) start limit) :
    let period := max requested (Period.hours 1)
    let checks := (runUntil outside check (.atLeastAnHour requested) limit start).1
    (∀ n, checks[n]? =
      if start.elapsed + (n + 1) * period < limit ∧
          ∀ m < n, panics (look outside check period start m).1 = false then
        some ⟨start.elapsed + (n + 1) * period, (look outside check period start n).1⟩
      else none) ∧
    (∀ moment, (∃ one ∈ checks, one.startedAt = moment) ↔
      moment < limit ∧ ∃ k, 0 < k ∧ moment = start.elapsed + k * period ∧
        ∀ m, m + 1 < k → panics (look outside check period start m).1 = false) ∧
    checks.Pairwise (·.startedAt < ·.startedAt) := by
  have hperiod : Brief outside check (Period.atLeastAnHour requested).nanos start limit := hbrief
  exact ⟨runUntil_getElem? hperiod, fun _ => exists_startedAt_iff hperiod,
    pairwise_startedAt hperiod⟩

end Ticks

/-! ### An authority that is out of reach -/

namespace FirstCertificate

open Ticks

/-- No order is taken, and the clock shows what is listed, one time for each wait. -/
def outage : Outside (List Time.Instant) where
  ask _ _ clock := (⟨.error (.missing "answer"), 5 * Polling.nanosPerSecond, .epoch⟩, clock)
  bind _ _ clock := (.bound, clock)
  sleep _ clock := (clock.headD .epoch, clock.tail)

def ahead : Time.Instant :=
  { Time.Instant.epoch with day := 36525, day_ge := by decide, day_le := by decide }

def misled : State (List Time.Instant) :=
  { State.start ⟨[ahead], 0, .epoch, .ofSeed [], []⟩ (.ofDisk (kept (some (stored false)))) with
    account := some (account (.ofSeed [])) }

def refused : State (List Time.Instant) :=
  let state := misled.slept outage (Period.hours 1)
  let request := .newOrder (account (.ofSeed [])) ["d"]
  { state with
    posted := []
    elapsed := state.elapsed + 5 * Polling.nanosPerSecond
    wall := .epoch
    exchanges := [⟨request, state.exposure, .error (.missing "answer")⟩] }

theorem isDue_ahead :
    Store.acme.isDue (kept (some (stored false))) ahead "d" ["d"] Client.defaultRenewBeforeDays =
      .ok true := by
  unfold Store.isDue
  rw [load_kept]
  rfl

theorem look_misled_zero :
    look outage (client.checkRenewal outage) (Period.hours 1) misled 0 =
      (.error (.orderCreation (ExchangeError.missing "answer").message), refused) := by
  have htime : time (Period.hours 1) misled 0 = Period.hours 1 := by
    simp [time, misled, State.start]
  have hwaited : misled.waitedUntil outage (Period.hours 1) =
      misled.slept outage (Period.hours 1) := if_pos (by decide)
  have hdue : client.store.isDue (misled.slept outage (Period.hours 1)).drive.disk
      (misled.slept outage (Period.hours 1)).wall client.primaryDomain client.domains
      client.renewBeforeDays = .ok true := isDue_ahead
  rw [look, waiting, htime, hwaited]
  simp only [Client.checkRenewal, Run.on_bind, Client.isDue_on, hdue, Except.mapError, if_true]
  rfl

theorem look_misled_one :
    look outage (client.checkRenewal outage) (Period.hours 1) misled 1 =
      (.ok false, refused.waitedUntil outage (Period.hours 2)) := by
  have htime : time (Period.hours 1) misled 1 = Period.hours 2 := by
    simp [time, misled, State.start, Period.hours]
  have hwaiting : waiting outage (client.checkRenewal outage) (Period.hours 1) misled 1 = refused :=
    congrArg Prod.snd look_misled_zero
  have hwaited : refused.waitedUntil outage (Period.hours 2) =
      refused.slept outage (Period.hours 2 - refused.elapsed) := if_pos (by decide)
  rw [look, hwaiting, htime, hwaited]
  exact Client.checkRenewal_of_fresh (isDue_kept false)

theorem lt_two_of_time {n : Nat} (h : time (Period.hours 1) misled n < Period.hours 2 + 1) :
    n < 2 := by
  have htime : time (Period.hours 1) misled n = (n + 1) * Period.hours 1 := Nat.zero_add _
  rw [htime] at h
  simp only [Period.hours, Polling.nanosPerSecond] at h
  omega

theorem brief_misled :
    Brief outage (client.checkRenewal outage) (Period.hours 1) misled (Period.hours 2 + 1) := by
  intro n hlimit
  have helapsed : (refused.waitedUntil outage (Period.hours 2)).elapsed = Period.hours 2 :=
    State.elapsed_waitedUntil outage (by decide)
  obtain rfl | rfl : n = 0 ∨ n = 1 := by
    have hn := lt_two_of_time hlimit
    omega
  · rw [look_misled_zero]
    decide
  · rw [look_misled_one, helapsed]
    decide

theorem runUntil_looks_misled :
    Brief outage (client.checkRenewal outage) (max 0 (Period.hours 1)) misled (Period.hours 2 + 1) ∧
    (runUntil outage (client.checkRenewal outage) (.atLeastAnHour 0) (Period.hours 2 + 1) misled).1 =
      [⟨Period.hours 1, .error (.orderCreation (ExchangeError.missing "answer").message)⟩,
        ⟨Period.hours 2, .ok false⟩] := by
  obtain ⟨hlooks, -, -⟩ := runUntil_looks outage (client.checkRenewal outage) 0
    (Period.hours 2 + 1) misled brief_misled
  refine ⟨brief_misled, List.ext_getElem? fun n => ?_⟩
  have hperiod : max 0 (Period.hours 1) = Period.hours 1 := rfl
  rw [hlooks n, hperiod]
  rcases n with _ | _ | n
  · rw [look_misled_zero]
    exact if_pos ⟨by decide, nofun⟩
  · have hcalm : ∀ m < 1,
        panics (look outage (client.checkRenewal outage) (Period.hours 1) misled m).1 = false := by
      intro m hm
      rw [Nat.lt_one_iff.mp hm, look_misled_zero]
      rfl
    rw [look_misled_one]
    exact if_pos ⟨by decide, hcalm⟩
  · exact if_neg fun h => absurd (lt_two_of_time h.1) (by omega)

end FirstCertificate

end RegistryFront.Acme
