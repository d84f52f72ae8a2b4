import RegistryFront.Acme.Client
import RegistryFront.Acme.Serving

/-!
# Renewal

At the start the certificate of the store is taken into service, or one is issued.  After that it is
looked every so often whether a new one is due; an error then changes nothing in that, unless it is a
panic.
-/

namespace RegistryFront.Acme

variable {σ : Type} (outside : Outside σ)

def serve (certificate : StoredCertificate) : Run σ Unit :=
  .of fun state =>
    let (result, resolver) := state.resolver.servePem certificate.chainPem certificate.keyPem
    (result, { state with resolver := resolver })

namespace Client

variable (client : Client)

def validCertificate : Run σ StoredCertificate := do
  match ← client.loadValid with
  | some certificate => pure certificate
  | none => client.issue outside

def ensureCertificate : Run σ Unit := do
  let certificate ← client.validCertificate outside
  serve certificate

def checkRenewal : Run σ Bool := do
  if ← client.isDue then do
    let certificate ← client.issue outside
    serve certificate
    pure true
  else pure false

end Client

/-! ## Looking every so often -/

structure Period where
  nanos : Nat
  an_hour_le : 3600 * Polling.nanosPerSecond ≤ nanos
  deriving DecidableEq

namespace Period

def hours (count : Nat) : Nat := count * (3600 * Polling.nanosPerSecond)

def atLeastAnHour (nanos : Nat) : Period :=
  ⟨max nanos (hours 1), Nat.le_trans (by decide) (Nat.le_max_right nanos (hours 1))⟩

def standard : Period := ⟨hours 12, by decide⟩

theorem nanos_pos (period : Period) : 0 < period.nanos :=
  Nat.lt_of_lt_of_le (by decide) period.an_hour_le

end Period

structure Check where
  startedAt : Nat
  result : Except IssueError Bool

def panics : Except IssueError Bool → Bool
  | .ok _ => false
  | .error cause => cause.isPanic

def State.waitedUntil (time : Nat) (state : State σ) : State σ :=
  if state.elapsed < time then state.slept outside (time - state.elapsed) else state

/-- The looks from tick number `tick` on, at the multiples of the period after the start, as long as
one begins before the limit and none panics.  Where a look takes longer than the period, the next one
follows at once. -/
def checksFrom (check : Run σ Bool) (period : Period) (start limit tick : Nat) (state : State σ) :
    List Check × State σ :=
  let time := start + tick * period.nanos
  let waited := state.waitedUntil outside time
  if limit ≤ time ∨ limit ≤ waited.elapsed then ([], waited)
  else
    let (result, state) := check.on waited
    let (checks, state) :=
      if panics result then ([], state)
      else checksFrom check period start limit (tick + 1) state
    (⟨waited.elapsed, result⟩ :: checks, state)
termination_by limit - (start + tick * period.nanos)
decreasing_by
  obtain ⟨_, _⟩ := not_or.mp ‹¬ (_ ∨ _)›
  have hpos := period.nanos_pos
  have hstep : (tick + 1) * period.nanos = tick * period.nanos + period.nanos := by
    rw [Nat.add_mul, Nat.one_mul]
  omega

/-- The looks until the limit.  None is made at the start itself, when there is a fresh certificate. -/
def runUntil (check : Run σ Bool) (period : Period) (limit : Nat) (state : State σ) :
    List Check × State σ :=
  checksFrom outside check period state.elapsed limit 1 state

def describeRenewal (client : Client) (period : Period) : String :=
  "RenewalScheduler \x7b domains: [" ++ ", ".intercalate (client.domains.map Text.quoted) ++
    "], check_interval: " ++ (Time.Span.mk (period.nanos / 1000000)).text ++ " \x7d"

end RegistryFront.Acme
