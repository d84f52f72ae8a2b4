import RegistryFront.Json.Strings

/-!
# Reading numbers

Whole numbers of up to 64 bits are kept as they are; all others become the nearest floating point
number, or are out of range.
-/

namespace RegistryFront.Json.Step

def digits : Step (List Char) := do
  let text ← rest
  moveTo (text.dropWhile Char.isDigit)
  pure (text.takeWhile Char.isDigit)

def nextIs (p : Char → Bool) : Step Bool := do
  match ← rest with
  | c :: _ => pure (p c)
  | [] => pure false

def maxWord : Nat := 18446744073709551615

def maxExponent : Nat := 2147483647

def digitValue (c : Char) : Nat := c.toNat - 48

def digitsWithin (limit : Nat) (value count : Nat) : List Char → Nat × Nat × List Char
  | [] => (value, count, [])
  | c :: text =>
      if c.isDigit && value * 10 + digitValue c ≤ limit then
        digitsWithin limit (value * 10 + digitValue c) (count + 1) text
      else (value, count, c :: text)

/-- Powers of ten up to this one are exact enough to multiply and divide by. -/
def maxPower : Nat := 308

def powerOfTen (n : Nat) : Float := Float.ofScientific 1 false n

def scaleDown (f : Float) (exponent : Nat) : Nat → Float
  | 0 => f
  | rounds + 1 =>
      if exponent ≤ maxPower then f / powerOfTen exponent
      else if f == 0.0 then f
      else scaleDown (f / powerOfTen maxPower) (exponent - maxPower) rounds

def assemble (positive : Bool) (significand : Nat) (exponent : Int) : Step Float := do
  let start := Float.ofNat significand
  let magnitude ←
    if exponent < 0 then pure (scaleDown start exponent.natAbs 10)
    else if significand = 0 then pure start
    else if maxPower < exponent.natAbs then failHere .numberOutOfRange
    else
      let f := start * powerOfTen exponent.natAbs
      if f.isInf then failHere .numberOutOfRange else pure f
  pure (if positive then magnitude else -magnitude)

def exponentPart (positive : Bool) (significand : Nat) (start : Int) : Step Float := do
  advance
  let negative ← nextIs (· == '-')
  if ← nextIs (fun c => c == '+' || c == '-') then advance
  match ← rest with
  | [] => failHere .endInValue
  | c :: text =>
      if !c.isDigit then failNext .invalidNumber
      else
        let (value, _, text) := digitsWithin maxExponent (digitValue c) 0 text
        moveTo text
        if ← nextIs Char.isDigit then
          advance
          if significand ≠ 0 ∧ ¬ negative then failHere .numberOutOfRange
          else
            let _ ← digits
            pure (if positive then 0.0 else -0.0)
        else assemble positive significand (if negative then start - value else start + value)

def afterDigits (positive : Bool) (significand : Nat) (exponent : Int) : Step Float := do
  if ← nextIs (fun c => c == 'e' || c == 'E') then exponentPart positive significand exponent
  else assemble positive significand exponent

def fractionPart (positive : Bool) (significand : Nat) (exponent : Int) : Step Float := do
  advance
  let (value, count, text) := digitsWithin maxWord significand 0 (← rest)
  moveTo text
  if ← nextIs Char.isDigit then
    let _ ← digits
    afterDigits positive value (exponent - count)
  else if count = 0 then
    match text with
    | [] => failNext .endInValue
    | _ => failNext .invalidNumber
  else afterDigits positive value (exponent - count)

def number (positive : Bool) : Step Found := do
  match ← rest with
  | [] => failHere .endInValue
  | c :: text =>
      if !c.isDigit then failNext .invalidNumber
      else if c = '0' && text.head?.any Char.isDigit then do advance; failNext .invalidNumber
      else
        let (value, _, text) :=
          if c = '0' then (0, 0, text) else digitsWithin maxWord (digitValue c) 0 text
        moveTo text
        let long ← if c = '0' then pure [] else digits
        let exponent : Int := long.length
        if ← nextIs (· == '.') then .float <$> fractionPart positive value exponent
        else if ← nextIs (fun c => c == 'e' || c == 'E') then
          .float <$> exponentPart positive value exponent
        else if long ≠ [] then .float <$> assemble positive value exponent
        else if positive then pure (.integer value)
        else if value = 0 ∨ 9223372036854775808 < value then
          pure (.float (-(Float.ofNat value)))
        else pure (.integer (-(value : Int)))

/-! ## Values of the wrong kind -/

/-- Reads as much of the value as it takes to name it, and names it in the fault. -/
def wrongKind (expected : String) : Step α :=
  settling id do
    let found ← match (← rest).head? with
      | some 'n' => do advance; word ['u', 'l', 'l']; pure .null
      | some 't' => do advance; word ['r', 'u', 'e']; pure (.bool true)
      | some 'f' => do advance; word ['a', 'l', 's', 'e']; pure (.bool false)
      | some '-' => do advance; number false
      | some '"' => do advance; .string <$> stringTail
      | some '[' => pure .list
      | some '\x7b' => pure .object
      | some c => if c.isDigit then number true else failNext .expectedValue
      | none => failNext .expectedValue
    failPending (.wrongKind found expected)

end RegistryFront.Json.Step
