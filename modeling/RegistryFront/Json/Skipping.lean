import RegistryFront.Json.Numbers

/-!
# Passing over values

A value that nobody asked for has to be well formed all the same.
-/

namespace RegistryFront.Json.Step

def skipString (fuel : Nat) (text : List Char) : Except Fault (List Char) :=
  match fuel, text with
  | _, [] => .error (.placed .endInString 0)
  | _, '"' :: rest => .ok rest
  | fuel + 1, '\\' :: rest =>
      match rest with
      | [] => .error (.placed .endInString 0)
      | 'u' :: rest => do
          let (_, rest) ← hexFour rest
          skipString fuel rest
      | c :: rest =>
          if (simpleEscape? c).isSome then skipString fuel rest
          else .error (.placed .invalidEscape (bytesLeft (c :: rest) - 1))
  | fuel + 1, c :: rest =>
      if c.toNat < 0x20 then .error (.placed .controlCharacter (bytesLeft text))
      else skipString fuel rest
  | 0, _ :: _ => .error (.placed .endInString 0)

def skipStringTail : Step Unit := do
  let text ← rest
  moveTo (← (skipString text.length text : Except Fault _))

def skipExponent : Step Unit := do
  advance
  if ← nextIs (fun c => c == '+' || c == '-') then advance
  if ← nextIs Char.isDigit then
    let _ ← digits
  else failNext .invalidNumber

def skipNumber : Step Unit := do
  match ← rest with
  | [] => failHere .invalidNumber
  | c :: text =>
      if !c.isDigit then failNext .invalidNumber
      moveTo text
      if c = '0' then
        if ← nextIs Char.isDigit then failNext .invalidNumber
      else
        let _ ← digits
      if ← nextIs (· == '.') then
        advance
        if (← digits) = [] then failNext .invalidNumber
      if ← nextIs (fun c => c == 'e' || c == 'E') then skipExponent

inductive Open where
  | list
  | object
  deriving DecidableEq, Repr

def Open.closer : Open → Char
  | .list => ']'
  | .object => '\x7d'

def skipKey : Step Unit := do
  match ← peek with
  | some '"' => do advance; skipStringTail
  | some _ => failNext .keyNotString
  | none => failNext .endInObject
  match ← peek with
  | some ':' => advance
  | some _ => failNext .expectedColon
  | none => failNext .endInObject

/-- Passes over what is left inside the open lists and objects, innermost first.  `fresh` tells that
nothing stands yet in the innermost one, `value` that a value is due. -/
def skipInside (fuel : Nat) (value fresh : Bool) (opened : List Open) : Step Unit :=
  match fuel with
  | 0 => failHere .endInValue
  | fuel + 1 => do
      if value then
        match ← peek with
        | none => failNext .endInValue
        | some 'n' => do advance; word ['u', 'l', 'l']; skipInside fuel false false opened
        | some 't' => do advance; word ['r', 'u', 'e']; skipInside fuel false false opened
        | some 'f' => do advance; word ['a', 'l', 's', 'e']; skipInside fuel false false opened
        | some '-' => do advance; skipNumber; skipInside fuel false false opened
        | some '"' => do advance; skipStringTail; skipInside fuel false false opened
        | some '[' => do advance; skipInside fuel false true (.list :: opened)
        | some '\x7b' => do advance; skipInside fuel false true (.object :: opened)
        | some c =>
            if c.isDigit then do skipNumber; skipInside fuel false false opened
            else failNext .expectedValue
      else
        match opened with
        | [] => pure ()
        | kind :: outer =>
            match ← peek with
            | none => failNext (match kind with
                | .list => .endInList
                | .object => .endInObject)
            | some c =>
                if c = kind.closer then do advance; skipInside fuel false false outer
                else if c = ',' && !fresh then do
                  advance
                  if kind = .object then skipKey
                  skipInside fuel true false opened
                else if fresh then do
                  if kind = .object then skipKey
                  skipInside fuel true false opened
                else failNext (match kind with
                  | .list => .expectedCommaOrBracket
                  | .object => .expectedCommaOrBrace)

def skipValue : Step Unit := do
  skipInside (2 * (← rest).length + 2) true false []

end RegistryFront.Json.Step
