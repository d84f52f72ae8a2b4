import RegistryFront.Text.Hex

/-!
# Writing JSON

Two layouts: compact, and indented by two blanks a level with every entry on its own line.
-/

namespace RegistryFront.Json

inductive Value where
  | null
  | bool (value : Bool)
  | number (value : Int)
  | string (text : String)
  | list (items : List Value)
  | object (fields : List (String × Value))
  deriving Inhabited

def escapeChar (c : Char) : List Char :=
  if c = '"' then ['\\', '"']
  else if c = '\\' then ['\\', '\\']
  else if c = '\n' then ['\\', 'n']
  else if c = '\r' then ['\\', 'r']
  else if c = '\t' then ['\\', 't']
  else if c.toNat = 0x08 then ['\\', 'b']
  else if c.toNat = 0x0C then ['\\', 'f']
  else if c.toNat < 0x20 then
    ['\\', 'u', '0', '0', Text.Hex.digit (c.toNat / 16), Text.Hex.digit (c.toNat % 16)]
  else [c]

def stringChars (text : String) : List Char :=
  '"' :: text.toList.flatMap escapeChar ++ ['"']

def indent (level : Nat) : List Char := List.replicate (2 * level) ' '

def block (level : Nat) (opener closer : Char) (entries : List (List Char)) : List Char :=
  match entries with
  | [] => [opener, closer]
  | first :: more =>
      opener :: '\n' :: indent (level + 1) ++ first ++
        more.flatMap (fun entry => ',' :: '\n' :: indent (level + 1) ++ entry) ++
        '\n' :: indent level ++ [closer]

def row (opener closer : Char) (entries : List (List Char)) : List Char :=
  match entries with
  | [] => [opener, closer]
  | first :: more => opener :: first ++ more.flatMap (',' :: ·) ++ [closer]

namespace Value

mutual

def compactChars : Value → List Char
  | .null => ['n', 'u', 'l', 'l']
  | .bool true => ['t', 'r', 'u', 'e']
  | .bool false => ['f', 'a', 'l', 's', 'e']
  | .number n => (toString n).toList
  | .string text => stringChars text
  | .list items => row '[' ']' (compactItems items)
  | .object fields => row '\x7b' '\x7d' (compactFields fields)

def compactItems : List Value → List (List Char)
  | [] => []
  | item :: rest => compactChars item :: compactItems rest

def compactFields : List (String × Value) → List (List Char)
  | [] => []
  | (name, value) :: rest =>
      (stringChars name ++ ':' :: compactChars value) :: compactFields rest

end

mutual

def prettyChars (level : Nat) : Value → List Char
  | .null => ['n', 'u', 'l', 'l']
  | .bool true => ['t', 'r', 'u', 'e']
  | .bool false => ['f', 'a', 'l', 's', 'e']
  | .number n => (toString n).toList
  | .string text => stringChars text
  | .list items => block level '[' ']' (prettyItems (level + 1) items)
  | .object fields => block level '\x7b' '\x7d' (prettyFields (level + 1) fields)

def prettyItems (level : Nat) : List Value → List (List Char)
  | [] => []
  | item :: rest => prettyChars level item :: prettyItems level rest

def prettyFields (level : Nat) : List (String × Value) → List (List Char)
  | [] => []
  | (name, value) :: rest =>
      (stringChars name ++ ':' :: ' ' :: prettyChars level value) :: prettyFields level rest

end

def compact (value : Value) : String := String.ofList value.compactChars

def pretty (value : Value) : String := String.ofList (value.prettyChars 0)

end Value

end RegistryFront.Json
