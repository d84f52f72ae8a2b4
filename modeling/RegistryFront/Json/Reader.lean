import RegistryFront.Json.Skipping

/-!
# Reading JSON into typed values

What kind of value is wanted is known beforehand, so that the first character decides, and a value of
another kind is named in the fault.  Values of unknown fields are passed over.
-/

namespace RegistryFront.Json

namespace Step

/-! ## Values of a wanted kind -/

def stringAs (expected : String) (convert : String → Except Cause α) : Step α := do
  match ← peek with
  | none => failNext .endInValue
  | some '"' => do
      advance
      let text ← stringTail
      match convert text with
      | .ok value => pure value
      | .error cause => failHere cause
  | some _ => wrongKind expected

def string : Step String := stringAs "a string" .ok

def optional (value : Step α) : Step (Option α) := do
  match ← peek with
  | some 'n' => do advance; word ['u', 'l', 'l']; pure none
  | _ => some <$> value

/-! ## Lists -/

def closeList (text : List Char) : List Char :=
  match skipBlank text with
  | ']' :: rest => rest
  | ',' :: rest => skipBlank rest
  | rest => rest

def listEnd : Step Unit := do
  match ← peek with
  | some ']' => advance
  | some ',' => do
      advance
      match ← peek with
      | some ']' => failNext .trailingComma
      | _ => failNext .trailingCharacters
  | some _ => failNext .trailingCharacters
  | none => failNext .endInList

def hasElement (first : Bool) : Step Bool := do
  match ← peek with
  | some ']' => pure false
  | some c =>
      if first then pure true
      else if c = ',' then
        advance
        match ← peek with
        | some ']' => failNext .trailingComma
        | some _ => pure true
        | none => failNext .endInValue
      else failNext .expectedCommaOrBracket
  | none => failNext .endInList

def elements (fuel : Nat) (first : Bool) (element : Step α) : Step (List α) :=
  match fuel with
  | 0 => pure []
  | fuel + 1 => do
      if ← hasElement first then
        let value ← element
        let more ← elements fuel false element
        pure (value :: more)
      else pure []

def list (element : Step α) : Step (List α) := do
  match ← peek with
  | none => failNext .endInValue
  | some '[' =>
      settling closeList do
        advance
        let values ← elements ((← rest).length + 1) true element
        listEnd
        pure values
  | some _ => wrongKind "a sequence"

/-! ## Records -/

def closeObject (text : List Char) : List Char :=
  match skipBlank text with
  | '\x7d' :: rest => rest
  | rest => rest

def objectEnd : Step Unit := do
  match ← peek with
  | some '\x7d' => advance
  | some ',' => failNext .trailingComma
  | some _ => failNext .trailingCharacters
  | none => failNext .endInObject

def key (first : Bool) : Step (Option String) := do
  match ← peek with
  | some '\x7d' => pure none
  | some c =>
      if first then
        if c = '"' then do advance; some <$> stringTail else failNext .keyNotString
      else if c = ',' then
        advance
        match ← peek with
        | some '"' => do advance; some <$> stringTail
        | some '\x7d' => failNext .trailingComma
        | some _ => failNext .keyNotString
        | none => failNext .endInValue
      else failNext .expectedCommaOrBrace
  | none => failNext .endInObject

def colon : Step Unit := do
  match ← peek with
  | some ':' => advance
  | some _ => failNext .expectedColon
  | none => failNext .endInObject

def once (name : String) (old : Option β) (value : Step β) : Step (Option β) := do
  if old.isSome then failPending (.duplicateField name)
  else
    colon
    some <$> value

def ignored : Step Unit := do
  colon
  skipValue

def fields (fuel : Nat) (first : Bool) (found : β) (field : String → β → Step β) : Step β :=
  match fuel with
  | 0 => pure found
  | fuel + 1 => do
      match ← key first with
      | none => pure found
      | some name => do
          let found ← field name found
          fields fuel false found field

structure Record (β α : Type) where
  description : String
  start : β
  field : String → β → Step β
  finish : β → Except Cause α
  inOrder : Step α

def required (name : String) : Option β → Except Cause β
  | some value => .ok value
  | none => .error (.missingField name)

def record (shape : Record β α) : Step α := do
  match ← peek with
  | none => failNext .endInValue
  | some '[' =>
      settling closeList do
        advance
        let value ← shape.inOrder
        listEnd
        pure value
  | some '\x7b' =>
      settling closeObject do
        advance
        let found ← fields ((← rest).length + 1) true shape.start shape.field
        match shape.finish found with
        | .error cause => failPending cause
        | .ok value => do
            objectEnd
            pure value
  | some _ => wrongKind shape.description

def nextOf (position : Nat) (description : String) (element : Step α) : Step α := do
  if ← hasElement (position == 0) then element
  else failPending (.wrongLength position description)

def nextOr (position : Nat) (default : α) (element : Step α) : Step α := do
  if ← hasElement (position == 0) then element else pure default

end Step

def parse (step : Step α) (text : String) : Except Error α :=
  let whole : Step α := do
    let value ← step
    match ← Step.peek with
    | none => pure value
    | some _ => Step.failNext .trailingCharacters
  match whole.run text.toList with
  | .ok (value, _) => .ok value
  | .error fault => .error (fault.locate text.toList)

end RegistryFront.Json

