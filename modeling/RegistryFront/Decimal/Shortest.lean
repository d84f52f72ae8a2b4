/-!
# The shortest decimal that reads back

A finite binary number is `m * 2 ^ q`.  Of the decimals that round to it, `shortest` picks one with the
fewest digits and, among those, the nearest.  All arithmetic is exact, on natural numbers.
-/

namespace RegistryFront.Decimal

structure Binary where
  significand : Nat
  exponent : Int
  /-- Whether the next smaller number is only half as far away as the next larger one. -/
  atPower : Bool
  deriving DecidableEq, Repr

structure Figure where
  digits : Nat
  exponent : Int
  deriving DecidableEq, Repr

def Binary.hidden : Nat := 0x10000000000000

def Binary.ofBits (bits : UInt64) : Binary :=
  let fraction := bits.toNat % hidden
  let biased := bits.toNat / hidden % 2048
  if biased = 0 then ⟨fraction, -1074, false⟩
  else ⟨hidden + fraction, (biased : Int) - 1075, fraction = 0 ∧ 1 < biased⟩

/-- A number over a common denominator: value, distance to the lower and to the upper end of what
rounds to it, each times four. -/
structure Scaled where
  value : Nat
  lower : Nat
  upper : Nat
  unit : Nat
  deriving DecidableEq, Repr

def Binary.scale (x : Binary) (place : Int) : Scaled :=
  let two := Nat.pow 2 x.exponent.toNat
  let ten := Nat.pow 10 (-place).toNat
  let value := 4 * x.significand * two * ten
  let half := 2 * two * ten
  { value := value
    lower := if x.atPower then half / 2 else half
    upper := half
    unit := 4 * Nat.pow 2 (-x.exponent).toNat * Nat.pow 10 place.toNat }

/-- Whether a multiple of the unit rounds to the number; the ends count when the significand is even. -/
def Scaled.reaches (s : Scaled) (even : Bool) (multiple : Nat) : Bool :=
  let point := multiple * s.unit
  if point ≤ s.value then
    let distance := s.value - point
    distance < s.lower || (even && distance == s.lower)
  else
    let distance := point - s.value
    distance < s.upper || (even && distance == s.upper)

def Binary.onGrid? (x : Binary) (place : Int) : Option Nat :=
  let s := x.scale place
  let below := s.value / s.unit
  let rest := s.value % s.unit
  let even := x.significand % 2 == 0
  let first := if 2 * rest < s.unit || (2 * rest == s.unit && below % 2 == 0) then below else below + 1
  let second := if first = below then below + 1 else below
  if s.reaches even first then some first
  else if s.reaches even second then some second
  else none

def Binary.search (x : Binary) (place : Int) : Nat → Figure
  | 0 => ⟨(x.onGrid? place).getD 0, place⟩
  | grids + 1 =>
      match x.onGrid? place with
      | some digits => if digits = 0 then search x (place - 1) grids else ⟨digits, place⟩
      | none => search x (place - 1) grids

/-- Above every place that the digits of a finite number reach. -/
def topPlace : Int := 310

def shortest (x : Binary) : Figure :=
  if x.significand = 0 then ⟨0, 0⟩ else x.search topPlace 660

/-! ## Layout -/

structure Layout where
  /-- The point stands at most this far right of the first digit. -/
  maxPoint : Int
  /-- It stands more than this far left of it. -/
  minPoint : Int
  deriving DecidableEq, Repr

/-- Numbers in messages: in full from 1e-5 on and below 1e16. -/
def messageLayout : Layout := ⟨16, -5⟩

def Layout.write (layout : Layout) (x : Figure) : String :=
  let digits := Nat.toDigits 10 x.digits
  let point : Int := digits.length + x.exponent
  let text : List Char :=
    if x.digits = 0 then ['0', '.', '0']
    else if 0 ≤ x.exponent ∧ point ≤ layout.maxPoint then
      digits ++ List.replicate x.exponent.toNat '0' ++ ['.', '0']
    else if 0 < point ∧ point ≤ layout.maxPoint then
      digits.take point.toNat ++ '.' :: digits.drop point.toNat
    else if layout.minPoint < point ∧ point ≤ 0 then
      '0' :: '.' :: List.replicate (-point).toNat '0' ++ digits
    else
      let mantissa := match digits with
        | [d] => [d]
        | d :: more => d :: '.' :: more
        | [] => []
      mantissa ++ 'e' :: (toString (point - 1)).toList
  String.ofList text

def writeFloat (x : Float) : String :=
  let bits := x.toBits
  let text := messageLayout.write (shortest (Binary.ofBits bits))
  if bits.toNat.testBit 63 then "-" ++ text else text

end RegistryFront.Decimal
