import RegistryFront.Acme.Resolver
import RegistryFront.Tls.Certified
import RegistryFront.Tls.ServerName

/-!
# Handshakes

The server first looks for a certificate, then for a protocol; without the one or the other it gives
up.  A client without protocols of its own gets none.
-/

namespace RegistryFront.Tls

structure Session (κ : Type) where
  certificate : κ
  protocol : Option Protocol
  deriving DecidableEq

def noCertificate : Fault := .unexpected "no server certificate chain resolved"

def emptyProtocol : Fault := .misbehaved "OfferedEmptyApplicationProtocol"

def accept (resolve : Option String → List Protocol → Option κ) (spoken : List Protocol)
    (serverName : Option String) (offered : List Protocol) : Except Fault (Session κ) :=
  match resolve serverName offered with
  | none => .error noCertificate
  | some certificate =>
      if offered.contains [] then .error emptyProtocol
      else
        match negotiate spoken offered with
        | .notAsked => .ok ⟨certificate, none⟩
        | .agreed protocol => .ok ⟨certificate, some protocol⟩
        | .noneInCommon => .error .noCommonProtocol

def handshake (resolver : Acme.Resolver κ) (board : Acme.ChallengeBoard κ) (spoken : List Protocol)
    (serverName : Option String) (offered : List Protocol) : Except Fault (Session κ) :=
  accept (resolver.select board) spoken serverName offered

/-! ## How a server is set up -/

inductive CertificateSource where
  | fixed (certified : Certified)
  | resolver (start : Acme.Resolver Certified)
  deriving DecidableEq

structure ServerSetup where
  source : CertificateSource
  protocols : List Protocol
  deriving DecidableEq

end RegistryFront.Tls
