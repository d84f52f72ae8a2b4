import RegistryFront.Acme.HttpAnswer
import RegistryFront.Tls.Handshake

/-!
# What an authority finds when it tries a challenge

The pending challenges are seen through the listeners that answer them: texts and certificates can be
had only while somebody listens for challenges of that kind.
-/

namespace RegistryFront.Acme

inductive Responder where
  | http01
  | tlsAlpn01
  deriving DecidableEq, Repr

structure Exposure where
  board : ChallengeBoard Tls.Certified
  responders : List Responder
  deriving DecidableEq

namespace Exposure

def fetch? (exposure : Exposure) (token : String) : Option HttpResponse :=
  if .http01 ∈ exposure.responders then
    some (answer exposure.board ⟨"GET", challengePath ++ token⟩)
  else none

def handshake? (exposure : Exposure) (domain : String) :
    Option (Except Tls.Fault (Tls.Session Tls.Certified)) :=
  if .tlsAlpn01 ∈ exposure.responders then
    some (Tls.handshake .idle exposure.board [Tls.Protocol.acmeChallenge] (some domain)
      [Tls.Protocol.acmeChallenge])
  else none

end Exposure

end RegistryFront.Acme
