import RegistryFront.Json.Fault

/-!
# Steps of reading

A step takes something off the front of the text, or ends with a fault and the place of it.
-/

namespace RegistryFront.Json

abbrev Step := StateT (List Char) (Except Fault)

namespace Step

/-! ## Where the text stands -/

def rest : Step (List Char) := get

def moveTo (rest : List Char) : Step Unit := set rest

def bytesLeft (rest : List Char) : Nat := (Text.Utf8.encodeChars rest).length

def failHere (cause : Cause) : Step α := do
  throw (.placed cause (bytesLeft (← rest)))

/-- A fault at the next character, behind its first byte. -/
def failNext (cause : Cause) : Step α := do
  throw (.placed cause (bytesLeft (← rest) - 1))

def failPending (cause : Cause) : Step α := do
  throw (.pending cause (← rest))

def isBlank (c : Char) : Bool := c == ' ' || c == '\n' || c == '\t' || c == '\r'

def skipBlank (text : List Char) : List Char := text.dropWhile isBlank

def peek : Step (Option Char) := do
  let text := skipBlank (← rest)
  moveTo text
  pure text.head?

def advance : Step Unit := modify List.tail

/-- Gives a pending fault the place that the text has after `close`. -/
def settling (close : List Char → List Char) (step : Step α) : Step α := fun text =>
  match step text with
  | .error (.pending cause rest) => .error (.placed cause (bytesLeft (close rest)))
  | result => result

/-! ## Words -/

def word : List Char → Step Unit
  | [] => pure ()
  | expected :: more => do
      match ← rest with
      | [] => failHere .endInValue
      | c :: text =>
          if c = expected then do moveTo text; word more
          else failNext .expectedIdent

end Step

end RegistryFront.Json
