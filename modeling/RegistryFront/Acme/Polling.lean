import RegistryFront.Acme.Run

/-!
# Asking again until it is decided

An attempt either decides or leaves something to go on with.  After an undecided one there is a wait of
one, two, four, eight and from then on ten seconds; when it would end past the limit, nothing more is
tried.
-/

namespace RegistryFront.Acme

inductive Attempt (β α : Type) where
  | undecided (next : β)
  | decided (value : α)
  deriving DecidableEq, Repr

namespace Polling

def nanosPerSecond : Nat := 1000000000

/-- The seconds to wait after the attempt with the number, counted from zero. -/
def delaySeconds (attempt : Nat) : Nat := min (Nat.pow 2 attempt) 10

def delay (attempt : Nat) : Nat := delaySeconds attempt * nanosPerSecond

theorem delay_pos (attempt : Nat) : 0 < delay attempt := by
  have h : 0 < Nat.pow 2 attempt := Nat.two_pow_pos attempt
  have hmin : 0 < delaySeconds attempt := Nat.lt_min.mpr ⟨h, by decide⟩
  exact Nat.mul_pos hmin (by decide)

structure Limit where
  seconds : Nat
  waitingFor : String
  deriving DecidableEq, Repr

def Limit.nanos (limit : Limit) : Nat := limit.seconds * nanosPerSecond

def Limit.exceeded (limit : Limit) : IssueError :=
  .timeout (.ofSeconds limit.seconds) limit.waitingFor

def validation : Limit := ⟨300, "challenge validation"⟩

def issuance : Limit := ⟨120, "certificate issuance"⟩

variable {σ α β : Type}

/-- Goes on with attempt number `attempt` when `left` nanoseconds are left. -/
def pollFrom (outside : Outside σ) (limit : Limit) (once : β → Run σ (Attempt β α)) (attempt : Nat)
    (left : Nat) (current : β) (state : State σ) : Except IssueError α × State σ :=
  match (once current).on state with
  | (.error cause, after) => (.error cause, after)
  | (.ok (.decided value), after) => (.ok value, after)
  | (.ok (.undecided next), after) =>
      let needed := after.elapsed - state.elapsed + delay attempt
      if left < needed then (.error limit.exceeded, after)
      else
        pollFrom outside limit once (attempt + 1) (left - needed) next
          (after.slept outside (delay attempt))
termination_by left
decreasing_by
  have := delay_pos attempt
  omega

def poll (outside : Outside σ) (limit : Limit) (once : β → Run σ (Attempt β α)) (first : β) :
    Run σ α :=
  .of (pollFrom outside limit once 0 limit.nanos first)

end Polling

end RegistryFront.Acme
