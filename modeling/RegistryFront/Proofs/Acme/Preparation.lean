import RegistryFront.Proofs.Acme.Withdrawal

/-!
# Preparing the answers of an order

Which challenge of an authorization is answered, why an authorization may be refused, and what the
board holds when all of them have been gone through: the answer to every one that is pending.
-/

namespace RegistryFront.Acme

open Tls (Certified)

variable {σ : Type}

/-! ## The challenge that is answered -/

def Authorization.offered? (authorization : Authorization) : Option Challenge :=
  (authorization.challenges.find? (·.kind = .tlsAlpn01)).or
    (authorization.challenges.find? (·.kind = .http01))

def Authorization.target? (authorization : Authorization) : Option Challenge :=
  if authorization.status = .pending then authorization.offered? else none

def State.drawn (state : State σ) : State σ := { state with entropy := state.entropy.nextStream }

namespace Order

variable (outside : Outside σ) (order : Order) (ports : Ports)

def answerCertificate (domain : String) (challenge : Challenge) (entropy : Keys.Entropy) :
    Except X509.BuildError Certified :=
  challengeCertificate domain (authorizationDigest challenge.token order.account.key) entropy

def bindOutcome (state : State σ) (responder : Responder) : BindOutcome :=
  (outside.bind responder (.onAll (ports.of responder)) state.outside).1

inductive Refuses (state : State σ) (authorization : Authorization) : IssueError → Prop where
  | decided (hpending : authorization.status ≠ .pending) (hvalid : authorization.status ≠ .valid) :
      Refuses state authorization (.authorization authorization.domain authorization.status.name)
  | unsupported (hpending : authorization.status = .pending)
      (hnone : ∀ challenge ∈ authorization.challenges,
        challenge.kind ≠ .tlsAlpn01 ∧ challenge.kind ≠ .http01) :
      Refuses state authorization (.noSupportedChallenge authorization.domain)
  | certificate {challenge : Challenge} {cause : X509.BuildError}
      (htarget : authorization.target? = some challenge) (hkind : challenge.kind = .tlsAlpn01)
      (hcause : order.answerCertificate authorization.domain challenge state.entropy =
        .error cause) :
      Refuses state authorization (.certificateGeneration cause)
  | listener {challenge : Challenge} {responder : Responder} {cause : Files.FileError}
      (htarget : authorization.target? = some challenge)
      (hkind : challenge.kind.responder? = some responder)
      (hanswer : challenge.kind = .tlsAlpn01 → ∃ certified,
        order.answerCertificate authorization.domain challenge state.entropy = .ok certified)
      (hresponder : responder ∉ state.responders)
      (hcause : bindOutcome outside ports state responder = .failed cause) :
      Refuses state authorization (.responder (.onAll (ports.of responder)) cause)

variable {outside order ports}

variable (outside order ports) in
inductive Prepares : State σ → List Authorization → State σ → Prop where
  | nil (state : State σ) : Prepares state [] state
  | cons {state after : State σ} {authorization : Authorization} {rest : List Authorization}
      (hfirst : ∀ cause, ¬ order.Refuses outside ports state authorization cause)
      (hrest : Prepares ((prepare outside order ports authorization).on state).2 rest after) :
      Prepares state (authorization :: rest) after

end Order

end RegistryFront.Acme
