import RegistryFront.Tls.Certified
import RegistryFront.X509.Builder

/-!
# Challenge certificates

A certificate by which an authority validates a domain: it is for the domain alone and holds the digest
of the key authorization.  Its key is made for it.
-/

namespace RegistryFront.Acme

open X509 (BuildError)

namespace ChallengeCertificate

def commonName : String := "rcgen self signed cert"

/-- The first second of 1975. -/
def notBefore : Int := 157766400

/-- The first second of 4096. -/
def notAfter : Int := 67090118400

def template (serial : Nat) (name : X509.AlternativeName) (digest : List UInt8) : X509.Template :=
  ⟨serial, commonName, notBefore, notAfter,
    [X509.AlternativeName.extension [name], X509.acmeIdentifier digest]⟩

end ChallengeCertificate

/-- The domain is looked at before the digest. -/
def challengeCertificate (domain : String) (digest : List UInt8) (entropy : Keys.Entropy) :
    Except BuildError Tls.Certified := do
  let name ← X509.AlternativeName.ofText domain
  if digest.length ≠ 32 then .error .digestLength
  else
    let (key, entropy) := Keys.CurveKey.generate .p256 entropy
    let (serial, entropy) := entropy.bytes 16
    let der ← X509.selfSigned
      (ChallengeCertificate.template (Digest.natOfBytes serial) name digest) (.curve key) entropy
    .ok ⟨[der], .curve key, by simp⟩

end RegistryFront.Acme
