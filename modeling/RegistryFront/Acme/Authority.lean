import RegistryFront.Acme.Account
import RegistryFront.Acme.Exposure
import RegistryFront.Acme.Problem
import RegistryFront.Files.Errno
import RegistryFront.Net.Address
import RegistryFront.Time.Instant

/-!
# The authority and the rest of the world

What is asked of a certificate authority and what it may answer.  Every answer may be any, or an error,
and may take any time: nothing here says how an authority behaves.  While it is asked it can see the
pending challenges and the listeners that answer them.
-/

namespace RegistryFront.Acme

/-! ## What an authority tells -/

inductive OrderStatus where
  | pending
  | ready
  | processing
  | valid
  | invalid
  deriving DecidableEq, Repr

inductive AuthorizationStatus where
  | pending
  | valid
  | invalid
  | revoked
  | expired
  deriving DecidableEq, Repr

def AuthorizationStatus.name : AuthorizationStatus → String
  | .pending => "Pending"
  | .valid => "Valid"
  | .invalid => "Invalid"
  | .revoked => "Revoked"
  | .expired => "Expired"

inductive ChallengeKind where
  | http01
  | dns01
  | tlsAlpn01
  deriving DecidableEq, Repr

structure Challenge where
  kind : ChallengeKind
  url : String
  token : String
  deriving DecidableEq, Repr

structure Authorization where
  domain : String
  status : AuthorizationStatus
  challenges : List Challenge
  deriving DecidableEq, Repr

structure OrderState where
  status : OrderStatus
  authorizationUrls : List String
  problem : Option Problem
  finalizeUrl : String
  certificateUrl : Option String
  deriving DecidableEq, Repr

/-! ## What it is asked -/

inductive Request where
  | directory (url : String)
  | newAccount (endpoints : Endpoints) (key : Keys.CurveKey) (contact : List String)
  | newOrder (account : Account) (domains : List String)
  | authorization (account : Account) (url : String)
  | challengeReady (account : Account) (url : String)
  | orderState (account : Account) (url : String)
  | finalize (account : Account) (url : String) (csr : List UInt8)
  | certificate (account : Account) (url : String)
  deriving DecidableEq, Repr

abbrev Request.Answer : Request → Type
  | .directory _ => Endpoints
  | .newAccount .. => String
  | .newOrder .. => String × OrderState
  | .authorization .. => Authorization
  | .challengeReady .. => Unit
  | .orderState .. => OrderState
  | .finalize .. => OrderState
  | .certificate .. => String

/-- An answer, how many nanoseconds it took, and what the clock shows then. -/
structure Reply (α : Type) where
  answer : Except ExchangeError α
  took : Nat
  wall : Time.Instant

/-! ## The rest of the world -/

structure Exchange where
  request : Request
  exposure : Exposure
  answer : Except ExchangeError request.Answer

inductive BindOutcome where
  | bound
  | inUse
  | failed (cause : Files.FileError)
  deriving DecidableEq, Repr

/-- Everything a client cannot decide by itself; `σ` is what it depends on. -/
structure Outside (σ : Type) where
  ask : (request : Request) → Exposure → σ → Reply request.Answer × σ
  bind : Responder → Net.Endpoint → σ → BindOutcome × σ
  sleep : Nat → σ → Time.Instant × σ

end RegistryFront.Acme
