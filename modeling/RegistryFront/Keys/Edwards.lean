import RegistryFront.Digest.Sha512
import RegistryFront.Keys.Entropy
import RegistryFront.Keys.Modular

/-!
# Keys on the Edwards curve

The curve is `-x² + y² = 1 + d x² y²` modulo `2 ^ 255 - 19`.  A private key is a seed of 32 bytes; its
digest gives the number that the base point is multiplied with.
-/

namespace RegistryFront.Keys.Edwards

def prime : Nat := Nat.pow 2 255 - 19

def factor : Nat := 0x52036cee2b6ffe738cc740797779e89800700a4d4141d8ab75eb4dca135978a3

structure Point where
  x : Nat
  y : Nat
  deriving DecidableEq, Repr

def neutral : Point := ⟨0, 1⟩

def base : Point :=
  ⟨0x216936d3cd6e53fec0a4e231fdd6dc5c692cc7609525a7b2c9562d608f25d51a,
    0x6666666666666666666666666666666666666666666666666666666666666658⟩

def divide (a b : Nat) : Nat := a * (inverse? prime b).getD 0 % prime

def add (a b : Point) : Point :=
  let t := factor * (a.x * b.x % prime) % prime * (a.y * b.y % prime) % prime
  ⟨divide (a.x * b.y + a.y * b.x) (1 + t), divide (a.y * b.y + a.x * b.x) (1 + prime - t)⟩

def multiply (n : Nat) (point : Point) : Point :=
  if _h : n = 0 then neutral
  else
    let twice := multiply (n / 2) (add point point)
    if n % 2 = 1 then add twice point else twice
termination_by n
decreasing_by omega

def littleEndian (bytes : Bytes) : Nat := Digest.natOfBytes bytes.reverse

/-- The second coordinate, and in the last bit whether the first one is odd. -/
def writePoint (point : Point) : Bytes :=
  (Digest.bytesOfNat 32 (point.y + point.x % 2 * Nat.pow 2 255)).reverse

/-- The number of a seed: the lowest three bits are zero and the highest of 255 is one. -/
def scalar (seed : Bytes) : Nat :=
  let n := littleEndian ((Digest.sha512 seed).take 32)
  n % Nat.pow 2 254 / 8 * 8 + Nat.pow 2 254

def publicKey (seed : Bytes) : Bytes := writePoint (multiply (scalar seed) base)

end RegistryFront.Keys.Edwards
