import RegistryFront.Json.Step

/-!
# Reading strings

A string ends at the next quote that no backslash stands before.  Characters outside the basic plane
may be given by the two halves of their code.
-/

namespace RegistryFront.Json.Step

def hexValue? (c : Char) : Option Nat :=
  if '0' ≤ c ∧ c ≤ '9' then some (c.toNat - 48)
  else if 'a' ≤ c ∧ c ≤ 'f' then some (c.toNat - 87)
  else if 'A' ≤ c ∧ c ≤ 'F' then some (c.toNat - 55)
  else none

/-- Four hexadecimal digits.  Four bytes are taken before they are looked at. -/
def hexFour (text : List Char) : Except Fault (Nat × List Char) :=
  if bytesLeft text < 4 then .error (.placed .endInString 0)
  else
    match text with
    | a :: b :: c :: d :: rest =>
        match hexValue? a, hexValue? b, hexValue? c, hexValue? d with
        | some a, some b, some c, some d => .ok (((a * 16 + b) * 16 + c) * 16 + d, rest)
        | _, _, _, _ => .error (.placed .invalidEscape (bytesLeft text - 4))
    | _ => .error (.placed .invalidEscape (bytesLeft text - 4))

def simpleEscape? (c : Char) : Option Char :=
  [('"', '"'), ('\\', '\\'), ('/', '/'), ('b', '\x08'), ('f', '\x0c'), ('n', '\n'), ('r', '\r'),
    ('t', '\t')].lookup c

def lowHalf (high : Nat) : List Char → Except Fault (Char × List Char)
  | '\\' :: 'u' :: text => do
      let (low, rest) ← hexFour text
      if 0xDC00 ≤ low ∧ low ≤ 0xDFFF then
        .ok (Char.ofNat ((high - 0xD800) * 0x400 + (low - 0xDC00) + 0x10000), rest)
      else .error (.placed .loneSurrogate (bytesLeft rest))
  | ['\\'] => .error (.placed .endInString 0)
  | '\\' :: rest => .error (.placed .endOfHexEscape (bytesLeft rest - 1))
  | [] => .error (.placed .endInString 0)
  | rest => .error (.placed .endOfHexEscape (bytesLeft rest - 1))

def codeEscape (text : List Char) : Except Fault (Char × List Char) := do
  let (n, rest) ← hexFour text
  if 0xDC00 ≤ n ∧ n ≤ 0xDFFF then .error (.placed .loneSurrogate (bytesLeft rest))
  else if 0xD800 ≤ n ∧ n ≤ 0xDBFF then lowHalf n rest
  else .ok (Char.ofNat n, rest)

def escape : List Char → Except Fault (Char × List Char)
  | [] => .error (.placed .endInString 0)
  | 'u' :: text => codeEscape text
  | c :: rest =>
      match simpleEscape? c with
      | some value => .ok (value, rest)
      | none => .error (.placed .invalidEscape (bytesLeft (c :: rest) - 1))

/-- The characters up to the closing quote.  `fuel` is at least the length of the text. -/
def stringBody (fuel : Nat) (text : List Char) : Except Fault (List Char × List Char) :=
  match fuel, text with
  | _, [] => .error (.placed .endInString 0)
  | _, '"' :: rest => .ok ([], rest)
  | fuel + 1, '\\' :: rest => do
      let (c, rest) ← escape rest
      let (more, rest) ← stringBody fuel rest
      .ok (c :: more, rest)
  | fuel + 1, c :: rest =>
      if c.toNat < 0x20 then .error (.placed .controlCharacter (bytesLeft rest))
      else do
        let (more, rest) ← stringBody fuel rest
        .ok (c :: more, rest)
  | 0, _ :: _ => .error (.placed .endInString 0)

def stringTail : Step String := do
  let text ← rest
  let (body, rest) ← (stringBody text.length text : Except Fault _)
  moveTo rest
  pure (String.ofList body)

end RegistryFront.Json.Step
