import RegistryFront.Asn1.Der
import RegistryFront.Keys.Entropy
import RegistryFront.Keys.Modular

/-!
# RSA keys

The modulus is the product of two primes; what is raised to the public exponent and then to the private
one is what it was.  The numbers of a key have to fit together, and the modulus has from 2048 to 8192
bits.
-/

namespace RegistryFront.Keys.Rsa

structure Numbers where
  modulus : Nat
  publicExponent : Nat
  privateExponent : Nat
  prime1 : Nat
  prime2 : Nat
  exponent1 : Nat
  exponent2 : Nat
  coefficient : Nat
  deriving DecidableEq, Repr

namespace Numbers

def isSound (k : Numbers) : Bool :=
  2048 ≤ bitLength k.modulus && bitLength k.modulus ≤ 8192 &&
  k.publicExponent % 2 == 1 && 3 ≤ k.publicExponent && bitLength k.publicExponent ≤ 33 &&
  1 < k.prime1 && 1 < k.prime2 && k.prime1 * k.prime2 == k.modulus &&
  k.privateExponent < k.modulus &&
  k.publicExponent * k.privateExponent % (k.prime1 - 1) == 1 &&
  k.publicExponent * k.privateExponent % (k.prime2 - 1) == 1 &&
  k.exponent1 < k.prime1 - 1 && k.publicExponent * k.exponent1 % (k.prime1 - 1) == 1 &&
  k.exponent2 < k.prime2 - 1 && k.publicExponent * k.exponent2 % (k.prime2 - 1) == 1 &&
  k.coefficient < k.prime1 && k.prime2 * k.coefficient % k.prime1 == 1

def write (k : Numbers) : Bytes :=
  Asn1.sequence <| [0, k.modulus, k.publicExponent, k.privateExponent, k.prime1, k.prime2,
    k.exponent1, k.exponent2, k.coefficient].map Asn1.natural

def readNaturals (values : List (UInt8 × Bytes)) : Option (List Nat) :=
  values.mapM fun (tag, content) =>
    if tag = Asn1.Tag.integer then Asn1.readNatural content else none

def read (bytes : Bytes) : Option Numbers := do
  let content ← Asn1.expectAll Asn1.Tag.sequence bytes
  match ← readNaturals (← Asn1.values content) with
  | [0, n, e, d, p, q, dp, dq, c] => some ⟨n, e, d, p, q, dp, dq, c⟩
  | _ => none

end Numbers

end Rsa

structure RsaKey where
  numbers : Rsa.Numbers
  sound : numbers.isSound = true
  deriving DecidableEq, Repr

namespace RsaKey

def ofNumbers? (numbers : Rsa.Numbers) : Option RsaKey :=
  if h : numbers.isSound = true then some ⟨numbers, h⟩ else none

def writePublic (key : RsaKey) : Bytes :=
  Asn1.sequence [Asn1.natural key.numbers.modulus, Asn1.natural key.numbers.publicExponent]

/-- Says that a digest of SHA-256 follows. -/
def digestStart : Bytes := [
  0x30, 0x31, 0x30, 0x0d, 0x06, 0x09, 0x60, 0x86, 0x48, 0x01, 0x65, 0x03, 0x04, 0x02, 0x01, 0x05,
  0x00, 0x04, 0x20]

/-- The signature of a message: its digest, filled up to the length of the modulus, to the private
exponent. -/
def sign (key : RsaKey) (message : Bytes) : Bytes :=
  let width := (bitLength key.numbers.modulus + 7) / 8
  let digest := digestStart ++ Digest.sha256 message
  let filled := [0x00, 0x01] ++ List.replicate (width - digest.length - 3) 0xFF ++ [0x00] ++ digest
  Digest.bytesOfNat width
    (powMod key.numbers.modulus (Digest.natOfBytes filled) key.numbers.privateExponent)

end RsaKey

end RegistryFront.Keys
