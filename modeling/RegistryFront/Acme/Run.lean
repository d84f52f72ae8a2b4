import RegistryFront.Acme.Authority
import RegistryFront.Acme.IssueError
import RegistryFront.Acme.Resolver
import RegistryFront.Files.Action

/-!
# Runs of a client

A run reads and changes the state of a client and its surroundings and may end with an error; what was
changed before stays changed.  All that is asked of the authority is kept, in order.
-/

namespace RegistryFront.Acme

open Tls (Certified)

structure Context (σ : Type) where
  outside : σ
  /-- Nanoseconds since the start. -/
  elapsed : Nat
  wall : Time.Instant
  entropy : Keys.Entropy
  /-- The oldest first. -/
  exchanges : List Exchange

inductive Posted where
  | text (token : String)
  | certificate (domain : String)
  deriving DecidableEq, Repr

structure State (σ : Type) extends Context σ where
  drive : Files.Drive
  board : ChallengeBoard Certified
  resolver : Resolver Certified
  account : Option Account
  posted : List Posted
  responders : List Responder

namespace State

def start (context : Context σ) (drive : Files.Drive) : State σ :=
  { context with
    drive := drive
    board := .empty
    resolver := .idle
    account := none
    posted := []
    responders := [] }

def exposure (state : State σ) : Exposure := ⟨state.board, state.responders⟩

end State

abbrev Run (σ α : Type) := ExceptT IssueError (StateM (State σ)) α

namespace Run

variable {σ α β : Type}

def of (step : State σ → Except IssueError α × State σ) : Run σ α := ExceptT.mk step

def on (run : Run σ α) (state : State σ) : Except IssueError α × State σ := run state

@[simp] theorem on_of (step : State σ → Except IssueError α × State σ) (state : State σ) :
    (of step).on state = step state := rfl

@[simp] theorem on_pure (value : α) (state : State σ) :
    (pure value : Run σ α).on state = (.ok value, state) := rfl

@[simp] theorem on_throw (cause : IssueError) (state : State σ) :
    (throw cause : Run σ α).on state = (.error cause, state) := rfl

theorem on_bind (run : Run σ α) (next : α → Run σ β) (state : State σ) :
    (run >>= next).on state =
      match run.on state with
      | (.ok value, state) => (next value).on state
      | (.error cause, state) => (.error cause, state) := by
  change (ExceptT.bindCont next (run state).1) (run state).2 = _
  unfold on
  rcases run state with ⟨_ | _, _⟩ <;> rfl

def always (run : Run σ α) (after : State σ → State σ) : Run σ α :=
  of fun state =>
    let (result, state) := run.on state
    (result, after state)

def change (step : State σ → State σ) : Run σ Unit := of fun state => (.ok (), step state)

def fromState (read : State σ → Except IssueError α) : Run σ α := of fun state => (read state, state)

def onDrive (wrap : ε → IssueError) (step : Files.Drive → Except ε α × Files.Drive) : Run σ α :=
  of fun state =>
    let (result, drive) := step state.drive
    (result.mapError wrap, { state with drive := drive })

/-- A stream that nothing else draws from. -/
def draw : Run σ Keys.Entropy :=
  of fun state => (.ok state.entropy, { state with entropy := state.entropy.nextStream })

def askOr (wrap : ExchangeError → IssueError) (outside : Outside σ) (request : Request) :
    Run σ request.Answer :=
  of fun state =>
    let (reply, inner) := outside.ask request state.exposure state.outside
    (reply.answer.mapError wrap,
      { state with
        outside := inner
        elapsed := state.elapsed + reply.took
        wall := reply.wall
        exchanges := state.exchanges ++ [⟨request, state.exposure, reply.answer⟩] })

def ask (outside : Outside σ) (request : Request) : Run σ request.Answer :=
  askOr .exchange outside request

end Run

def State.slept (outside : Outside σ) (nanos : Nat) (state : State σ) : State σ :=
  let (wall, inner) := outside.sleep nanos state.outside
  { state with outside := inner, elapsed := state.elapsed + nanos, wall := wall }

end RegistryFront.Acme
