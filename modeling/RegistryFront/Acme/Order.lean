import RegistryFront.Acme.ChallengeCertificate
import RegistryFront.Acme.Polling

/-!
# Orders

An order begins with authorizations: for every domain that is not ours yet a challenge is answered.
Only when all answers stand is the authority told to try them; then the order becomes ready, the
request for the certificate is handed in, and the chain can be fetched.  Whatever comes of it, the
answers are withdrawn in the end.
-/

namespace RegistryFront.Acme

structure Order where
  account : Account
  url : String
  start : OrderState
  deriving DecidableEq, Repr

structure Ports where
  http : Nat
  tlsAlpn : Nat
  deriving DecidableEq, Repr

def Ports.of (ports : Ports) : Responder → Nat
  | .http01 => ports.http
  | .tlsAlpn01 => ports.tlsAlpn

/-! ## Choice of the challenge -/

def ChallengeKind.responder? : ChallengeKind → Option Responder
  | .http01 => some .http01
  | .tlsAlpn01 => some .tlsAlpn01
  | .dns01 => none

def Challenge.firstFor? (challenges : List Challenge) (responder : Responder) : Option Challenge :=
  challenges.find? fun challenge => challenge.kind.responder? == some responder

def Challenge.preferred? (challenges : List Challenge) : Option (Responder × Challenge) :=
  match firstFor? challenges .tlsAlpn01 with
  | some challenge => some (.tlsAlpn01, challenge)
  | none => (firstFor? challenges .http01).map fun challenge => (.http01, challenge)

/-! ## Answers on the board -/

namespace State

variable {σ : Type}

def postText (token keyAuthorization : String) (state : State σ) : State σ :=
  { state with
    board := state.board.addText token keyAuthorization
    posted := state.posted ++ [.text token] }

def postCertificate (domain : String) (certified : Tls.Certified) (state : State σ) : State σ :=
  { state with
    board := state.board.addCertificate domain certified
    posted := state.posted ++ [.certificate domain] }

end State

def ChallengeBoard.withdraw (board : ChallengeBoard κ) : Posted → ChallengeBoard κ
  | .text token => board.removeText token
  | .certificate domain => board.removeCertificate domain

def ChallengeBoard.withdrawAll (board : ChallengeBoard κ) (posted : List Posted) : ChallengeBoard κ :=
  posted.foldl ChallengeBoard.withdraw board

def State.withdrawn (state : State σ) : State σ :=
  { state with board := state.board.withdrawAll state.posted, responders := [] }

namespace Order

variable {σ : Type} (outside : Outside σ) (order : Order)

def post (domain : String) (challenge : Challenge) : Responder → Run σ Unit
  | .tlsAlpn01 => do
      let entropy ← .draw
      let digest := authorizationDigest challenge.token order.account.key
      match challengeCertificate domain digest entropy with
      | .ok certified => .change (.postCertificate domain certified)
      | .error cause => throw (.certificateGeneration cause)
  | .http01 =>
      .change (.postText challenge.token (keyAuthorization challenge.token order.account.key))

/-- Starts to listen, unless that is done already.  Where somebody else listens, that one answers. -/
def listen (ports : Ports) (responder : Responder) : Run σ Unit :=
  .of fun state =>
    if responder ∈ state.responders then (.ok (), state)
    else
      let endpoint := Net.Endpoint.onAll (ports.of responder)
      let (outcome, inner) := outside.bind responder endpoint state.outside
      let state := { state with outside := inner }
      match outcome with
      | .bound => (.ok (), { state with responders := state.responders ++ [responder] })
      | .inUse => (.ok (), state)
      | .failed cause => (.error (.responder endpoint cause), state)

def prepare (ports : Ports) (authorization : Authorization) : Run σ (Option String) :=
  match authorization.status with
  | .valid => pure none
  | .pending =>
      match Challenge.preferred? authorization.challenges with
      | none => throw (.noSupportedChallenge authorization.domain)
      | some (responder, challenge) => do
          post order authorization.domain challenge responder
          listen outside ports responder
          pure (some challenge.url)
  | status => throw (.authorization authorization.domain status.name)

def authorizations : List String → Run σ (List Authorization)
  | [] => pure []
  | url :: rest => do
      let authorization ← .ask outside (.authorization order.account url)
      let others ← authorizations rest
      pure (authorization :: others)

def prepareAll (ports : Ports) : List Authorization → Run σ (List String)
  | [] => pure []
  | authorization :: rest => do
      let url? ← prepare outside order ports authorization
      let urls ← prepareAll ports rest
      pure (url?.toList ++ urls)

def announce : List String → Run σ Unit
  | [] => pure ()
  | url :: rest => do
      .ask outside (.challengeReady order.account url)
      announce rest

/-! ## Waiting -/

def invalidDetail (state : OrderState) : String :=
  match state.problem with
  | some problem => problem.describe
  | none => "no detail"

def readyAttempt (_ : Unit) : Run σ (Attempt Unit OrderState) := do
  let state ← .ask outside (.orderState order.account order.url)
  match state.status with
  | .ready | .valid => pure (.decided state)
  | .invalid => throw (.orderInvalid (invalidDetail state))
  | .pending | .processing => pure (.undecided ())

def pollReady : Run σ OrderState :=
  Polling.poll outside Polling.validation (readyAttempt outside order) ()

def validate (ports : Ports) : Run σ OrderState := do
  let authorizations ← authorizations outside order order.start.authorizationUrls
  let urls ← prepareAll outside order ports authorizations
  announce outside order urls
  pollReady outside order

def latestState (state : OrderState) : Run σ OrderState :=
  if state.status = .processing then .ask outside (.orderState order.account order.url)
  else pure state

def chainAttempt (state : OrderState) : Run σ (Attempt OrderState String) := do
  let state ← latestState outside order state
  match state.problem, state.status, state.certificateUrl with
  | some problem, _, _ => throw (.exchange (.refused problem))
  | none, .processing, _ => pure (.undecided state)
  | none, .valid, some url => .decided <$> .ask outside (.certificate order.account url)
  | none, .valid, none => throw (.exchange (.missing "no certificate URL found"))
  | none, _, _ => throw (.exchange (.missing "invalid order state"))

def pollChain (state : OrderState) : Run σ String :=
  Polling.poll outside Polling.issuance (chainAttempt outside order) state

end Order

end RegistryFront.Acme
