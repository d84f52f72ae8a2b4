import RegistryFront.Keys.Rsa

/-!
# Making RSA keys

Odd numbers are tried from a random one on, until one passes for a prime: it has no small divisor, and
no base shows it to be composite.
-/

namespace RegistryFront.Keys.Rsa

/-! ## Primes -/

def smallPrimes : List Nat :=
  (List.range 2000).filter fun n => 2 ≤ n && ((List.range 45).all fun d => d < 2 || n ≤ d || n % d ≠ 0)

def smallProduct : Nat := smallPrimes.foldl (· * ·) 1

def oddPart (n : Nat) : Nat × Nat :=
  if _h : n = 0 ∨ n % 2 = 1 then (n, 0)
  else
    let (odd, twos) := oddPart (n / 2)
    (odd, twos + 1)
termination_by n
decreasing_by omega

/-- Squares up to `twos` times and looks for the number before one. -/
def reachesLast (n x : Nat) : Nat → Bool
  | 0 => false
  | twos + 1 => x == n - 1 || reachesLast n (x * x % n) twos

/-- Whether the base does not show the odd number to be composite. -/
def passes (n witness : Nat) : Bool :=
  let (odd, twos) := oddPart (n - 1)
  let x := powMod n witness odd
  x == 1 || reachesLast n x twos

def witnesses : List Nat := [2, 3, 5, 7, 11, 13, 17, 19, 23, 29, 31, 37, 41, 43, 47, 53]

def seemsPrime (n : Nat) : Bool := Nat.gcd n smallProduct == 1 && witnesses.all (passes n)

/-- The first number from `n` on, in steps of two, that seems prime and whose predecessor has no
divisor in common with the exponent. -/
def nextPrime? (exponent n : Nat) : (tries : Nat) → Option Nat
  | 0 => none
  | tries + 1 =>
      if seemsPrime n && Nat.gcd (n - 1) exponent == 1 then some n
      else nextPrime? exponent (n + 2) tries

/-- A prime of as many bits, of which the first two are one. -/
def drawPrime (bits exponent : Nat) (entropy : Entropy) : Option Nat × Entropy :=
  let quarter := Nat.pow 2 (bits - 2)
  let (n, entropy) := entropy.below quarter
  (nextPrime? exponent (3 * quarter + n / 2 * 2 + 1) (16 * bits), entropy)

/-! ## Keys -/

def Numbers.ofPrimes? (exponent p q : Nat) : Option Numbers := do
  let d ← inverse? ((p - 1) * (q - 1)) exponent
  let c ← inverse? p q
  some ⟨p * q, exponent, d, p, q, d % (p - 1), d % (q - 1), c⟩

def commonExponent : Nat := 65537

def generate? (bits : Nat) (entropy : Entropy) : Option RsaKey × Entropy :=
  let (p, entropy) := drawPrime (bits / 2) commonExponent entropy
  let (q, entropy) := drawPrime (bits / 2) commonExponent entropy
  let key := do
    let numbers ← Numbers.ofPrimes? commonExponent (← p) (← q)
    RsaKey.ofNumbers? numbers
  (key, entropy)

end RegistryFront.Keys.Rsa
