import RegistryFront.Acme.ChallengeBoard
import RegistryFront.Tls.Protocol

/-!
# Choice of the certificate

A handshake that offers the challenge protocol and nothing else is a validation: it gets the challenge
certificate of the domain or none.  Every other handshake gets the certificate in service.
-/

namespace RegistryFront.Acme

structure Resolver (κ : Type) where
  current : Option κ
  deriving DecidableEq

namespace Resolver

variable {κ : Type}

def idle : Resolver κ := ⟨none⟩

instance : Inhabited (Resolver κ) := ⟨idle⟩

def serve (certificate : κ) : Resolver κ := ⟨some certificate⟩

def isValidation (offered : List Tls.Protocol) : Bool := offered == [Tls.Protocol.acmeChallenge]

def select (resolver : Resolver κ) (board : ChallengeBoard κ) (serverName : Option String)
    (offered : List Tls.Protocol) : Option κ :=
  if isValidation offered then serverName.bind board.certificate?
  else resolver.current

def describe (resolver : Resolver κ) (board : ChallengeBoard κ) : String :=
  "AcmeCertResolver \x7b has_certificate: " ++ toString resolver.current.isSome ++
    ", pending_challenges: " ++ toString board.pending ++ " \x7d"

end Resolver

end RegistryFront.Acme
