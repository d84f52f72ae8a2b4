import RegistryFront.Keys.RsaGeneration
import RegistryFront.Pem.Writer
import RegistryFront.StaticPair.Error
import RegistryFront.X509.Builder

/-!
# The certificate of last resort

A server that has no other certificate signs one for itself.  It is for the registry and the local
host, holds for a year, and is dated back an hour for clients whose clock is slow.
-/

namespace RegistryFront.StaticPair

structure PemPair where
  certificate : Bytes
  key : Bytes
  deriving DecidableEq, Repr

namespace SelfSigned

def commonName : String := "registry"

def names : List X509.AlternativeName := [.dns "registry", .dns "localhost"]

def keyBits : Nat := 2048

def serialBytes : Nat := 16

def backdating : Int := 3600

def lifetime : Int := 365 * 86400

def template (serial : Nat) (now : Int) : X509.Template :=
  ⟨serial, commonName, now - backdating, now + lifetime,
    [X509.AlternativeName.extension names,
      X509.KeyUse.extension [.digitalSignature, .keyEncipherment],
      X509.extendedUsage [X509.serverAuthId],
      X509.basicConstraints false]⟩

/-- A new pair; `now` is in seconds since 1970. -/
def generate (now : Int) (entropy : Keys.Entropy) : Except Error PemPair :=
  match Keys.Rsa.generate? keyBits entropy with
  | (none, _) => .error (.keyGeneration "internal error")
  | (some key, entropy) =>
      let (serial, entropy) := entropy.bytes serialBytes
      match X509.selfSigned (template (Digest.natOfBytes serial) now) (.rsa key) entropy with
      | .error cause => .error (.certificate cause)
      | .ok der =>
          .ok ⟨Pem.write .certificate der, Pem.write .rsaPrivateKey key.numbers.write⟩

end SelfSigned

end RegistryFront.StaticPair
