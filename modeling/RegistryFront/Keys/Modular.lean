/-!
# Arithmetic modulo a number
-/

namespace RegistryFront.Keys

def powMod (modulus base exponent : Nat) : Nat :=
  if _h : exponent = 0 then 1 % modulus
  else
    let half := powMod modulus (base * base % modulus) (exponent / 2)
    if exponent % 2 = 1 then half * base % modulus else half
termination_by exponent
decreasing_by omega

/-- The greatest common divisor of `a` and `b` together with a factor `t` such that it is `t` times the
start of `b`, up to multiples of the start of `a`.  `s` and `t` are these factors so far. -/
def gcdFactor (a b : Nat) (s t : Int) : Nat × Int :=
  if _h : b = 0 then (a, s)
  else gcdFactor b (a % b) t (s - (a / b : Nat) * t)
termination_by b
decreasing_by exact Nat.mod_lt a (Nat.pos_of_ne_zero _h)

def inverse? (modulus a : Nat) : Option Nat :=
  let (divisor, factor) := gcdFactor modulus (a % modulus) 0 1
  if divisor = 1 ∧ 1 < modulus then some (factor % modulus).toNat else none

/-- `a - b`, for numbers below the modulus. -/
def subMod (modulus a b : Nat) : Nat := (a + modulus - b) % modulus

def bitLength (n : Nat) : Nat := if n = 0 then 0 else n.log2 + 1

end RegistryFront.Keys
