import RegistryFront.Asn1.Der
import RegistryFront.Keys.Entropy
import RegistryFront.Keys.Modular

/-!
# Keys on elliptic curves

The points of `y² = x³ - 3x + b` modulo a prime, a base point of prime order, and signatures with
them.
-/

namespace RegistryFront.Keys

inductive Curve where
  | p256
  | p384
  | p521
  deriving DecidableEq, Repr

namespace Curve

def all : List Curve := [.p256, .p384, .p521]

def prime : Curve → Nat
  | .p256 => 0xffffffff00000001000000000000000000000000ffffffffffffffffffffffff
  | .p384 =>
      0xfffffffffffffffffffffffffffffffffffffffffffffffffffffffffffffffeffffffff0000000000000000ffffffff
  | .p521 => Nat.pow 2 521 - 1

def order : Curve → Nat
  | .p256 => 0xffffffff00000000ffffffffffffffffbce6faada7179e84f3b9cac2fc632551
  | .p384 =>
      0xffffffffffffffffffffffffffffffffffffffffffffffffc7634d81f4372ddf581a0db248b0a77aecec196accc52973
  | .p521 =>
      0x1fffffffffffffffffffffffffffffffffffffffffffffffffffffffffffffffffa51868783bf2f966b7fcc0148f709a5d03bb5c9b8899c47aebb6fb71e91386409

def baseX : Curve → Nat
  | .p256 => 0x6b17d1f2e12c4247f8bce6e563a440f277037d812deb33a0f4a13945d898c296
  | .p384 =>
      0xaa87ca22be8b05378eb1c71ef320ad746e1d3b628ba79b9859f741e082542a385502f25dbf55296c3a545e3872760ab7
  | .p521 =>
      0xc6858e06b70404e9cd9e3ecb662395b4429c648139053fb521f828af606b4d3dbaa14b5e77efe75928fe1dc127a2ffa8de3348b3c1856a429bf97e7e31c2e5bd66

def baseY : Curve → Nat
  | .p256 => 0x4fe342e2fe1a7f9b8ee7eb4a7c0f9e162bce33576b315ececbb6406837bf51f5
  | .p384 =>
      0x3617de4a96262c6f5d9e98bf9292dc29f8f41dbd289a147ce9da3113b5f0b8c00a60b1ce1d7e819d7a431d7c90ea0e5f
  | .p521 =>
      0x11839296a789a3bc0045c8a5fb42c7d1bd998f54449579b446817afbd17273e662c97ee72995ef42640c550b9013fad0761353c7086a272c24088be94769fd16650

def width : Curve → Nat
  | .p256 => 32
  | .p384 => 48
  | .p521 => 66

def objectId : Curve → Asn1.ObjectId
  | .p256 => [1, 2, 840, 10045, 3, 1, 7]
  | .p384 => [1, 3, 132, 0, 34]
  | .p521 => [1, 3, 132, 0, 35]

/-! ## Points -/

inductive Point where
  | infinity
  | affine (x y : Nat)
  deriving DecidableEq, Repr

def base (curve : Curve) : Point := .affine curve.baseX curve.baseY

/-- The third point of the line through the first with this slope, on the other side of the axis. -/
def along (curve : Curve) (slope x y other : Nat) : Point :=
  let p := curve.prime
  let x' := subMod p (subMod p (slope * slope % p) x) other
  .affine x' (subMod p (slope * subMod p x x' % p) y)

def double (curve : Curve) : Point → Point
  | .infinity => .infinity
  | .affine x y =>
      let p := curve.prime
      match inverse? p (2 * y) with
      | none => .infinity
      | some inverse => curve.along (3 * subMod p (x * x % p) 1 * inverse % p) x y x

def add (curve : Curve) : Point → Point → Point
  | .infinity, b => b
  | a, .infinity => a
  | .affine x y, .affine x' y' =>
      let p := curve.prime
      match inverse? p (subMod p x' x) with
      | some inverse => curve.along (subMod p y' y * inverse % p) x y x'
      | none => if y = y' then curve.double (.affine x y) else .infinity

def multiply (curve : Curve) (n : Nat) (point : Point) : Point :=
  if _h : n = 0 then .infinity
  else
    let twice := curve.multiply (n / 2) (curve.double point)
    if n % 2 = 1 then curve.add twice point else twice
termination_by n
decreasing_by omega

def writePoint (curve : Curve) : Point → Bytes
  | .infinity => [0]
  | .affine x y => 4 :: Digest.bytesOfNat curve.width x ++ Digest.bytesOfNat curve.width y

def writeCompressed (curve : Curve) : Point → Bytes
  | .infinity => [0]
  | .affine x y => (if y % 2 = 0 then 2 else 3) :: Digest.bytesOfNat curve.width x

end Curve

/-! ## Keys -/

structure CurveKey where
  curve : Curve
  secret : Nat
  secret_pos : 0 < secret
  secret_lt : secret < curve.order
  deriving DecidableEq, Repr

namespace CurveKey

def make? (curve : Curve) (secret : Nat) : Option CurveKey :=
  if h : 0 < secret ∧ secret < curve.order then some ⟨curve, secret, h.1, h.2⟩ else none

theorem order_gt_one (curve : Curve) : 1 < curve.order := by cases curve <;> decide

def generate (curve : Curve) (entropy : Entropy) : CurveKey × Entropy :=
  let (n, entropy) := entropy.below (curve.order - 1)
  have hgt := order_gt_one curve
  (⟨curve, n % (curve.order - 1) + 1, by omega,
    by have := Nat.mod_lt n (show 0 < curve.order - 1 by omega); omega⟩, entropy)

def publicPoint (key : CurveKey) : Curve.Point := key.curve.multiply key.secret key.curve.base

def signWith? (key : CurveKey) (digest : Bytes) (once : Nat) : Option (Nat × Nat) :=
  let n := key.curve.order
  let z := Digest.natOfBytes digest
  match key.curve.multiply once key.curve.base, inverse? n once with
  | .affine x _, some inverse =>
      let r := x % n
      let s := inverse * ((z + r * key.secret) % n) % n
      if r = 0 ∨ s = 0 then none else some (r, s)
  | _, _ => none

def signTrying (key : CurveKey) (digest : Bytes) : (tries : Nat) → Entropy → Option (Nat × Nat)
  | 0, _ => none
  | tries + 1, entropy =>
      let (once, entropy) := entropy.below key.curve.order
      match key.signWith? digest once with
      | some signature => some signature
      | none => key.signTrying digest tries entropy

/-- The digest has to be no longer than the order of the curve. -/
def sign (key : CurveKey) (digest : Bytes) (entropy : Entropy) : Option Bytes :=
  (key.signTrying digest 64 entropy).map fun (r, s) =>
    Asn1.sequence [Asn1.natural r, Asn1.natural s]

end CurveKey

end RegistryFront.Keys
