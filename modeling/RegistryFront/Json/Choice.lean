import RegistryFront.Json.Reader

/-!
# Names and small numbers

A string that has to be one of a few names, and whole numbers of 16 bits.
-/

namespace RegistryFront.Json.Step

def choice (choices : List (String × α)) : Step α := do
  match ← peek with
  | none => failNext .endInValue
  | some '"' => do
      advance
      let name ← stringTail
      match choices.lookup name with
      | some value => pure value
      | none => failHere (.unknownVariant name (choices.map (·.1)))
  | some _ => failNext .expectedValue

def outOfRange (value : Int) : Cause :=
  .other ("invalid value: " ++ (Found.integer value).describe ++ ", expected u16")

def small : Step Nat := do
  let found ← match ← peek with
    | none => failNext .endInValue
    | some '-' => do advance; number false
    | some c => if c.isDigit then number true else wrongKind "u16"
  match found with
  | .integer value =>
      if 0 ≤ value ∧ value < 65536 then pure value.toNat else failHere (outOfRange value)
  | found => failHere (.wrongKind found "u16")

end RegistryFront.Json.Step
