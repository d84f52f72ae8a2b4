import RegistryFront.Text.Utf8

/-!
# Base64

Bytes as text in groups of four characters for three bytes, the last group filled up with `=`.  Reading
skips white space; the filling may be left out, but what is there of it has to be right.  The variant
for addresses has `-` and `_` for `+` and `/` and no filling.
-/

namespace RegistryFront.Base64

/-- The last two of the 64 characters. -/
structure Alphabet where
  plus : UInt8
  slash : UInt8
  deriving DecidableEq, Repr

def standard : Alphabet := ⟨43, 47⟩

def urlSafe : Alphabet := ⟨45, 95⟩

def pad : UInt8 := 61

/-! ## Writing -/

def Alphabet.char (alphabet : Alphabet) (n : Nat) : UInt8 :=
  if n < 26 then UInt8.ofNat (65 + n)
  else if n < 52 then UInt8.ofNat (71 + n)
  else if n < 62 then UInt8.ofNat (n - 4)
  else if n = 62 then alphabet.plus
  else alphabet.slash

def Alphabet.encodeBare (alphabet : Alphabet) : Bytes → Bytes
  | a :: b :: c :: rest =>
      alphabet.char (a.toNat / 4) ::
      alphabet.char (a.toNat % 4 * 16 + b.toNat / 16) ::
      alphabet.char (b.toNat % 16 * 4 + c.toNat / 64) ::
      alphabet.char (c.toNat % 64) :: alphabet.encodeBare rest
  | [a, b] =>
      [alphabet.char (a.toNat / 4), alphabet.char (a.toNat % 4 * 16 + b.toNat / 16),
        alphabet.char (b.toNat % 16 * 4)]
  | [a] => [alphabet.char (a.toNat / 4), alphabet.char (a.toNat % 4 * 16)]
  | [] => []

def encode (bytes : Bytes) : Bytes :=
  standard.encodeBare bytes ++ List.replicate ((3 - bytes.length % 3) % 3) pad

/-! ## Reading -/

def isSpace (b : UInt8) : Bool := (9 ≤ b && b ≤ 13) || b == 32

def Alphabet.value? (alphabet : Alphabet) (b : UInt8) : Option Nat :=
  if 65 ≤ b ∧ b ≤ 90 then some (b.toNat - 65)
  else if 97 ≤ b ∧ b ≤ 122 then some (b.toNat - 71)
  else if 48 ≤ b ∧ b ≤ 57 then some (b.toNat + 4)
  else if b = alphabet.plus then some 62
  else if b = alphabet.slash then some 63
  else none

/-- The bytes of groups of four values; a last group of two or three gives one or two bytes. -/
def joinValues : List Nat → Option Bytes
  | a :: b :: c :: d :: rest => do
      let more ← joinValues rest
      some (UInt8.ofNat (4 * a + b / 16) :: UInt8.ofNat (b % 16 * 16 + c / 4) ::
        UInt8.ofNat (c % 4 * 64 + d) :: more)
  | [a, b, c] => some [UInt8.ofNat (4 * a + b / 16), UInt8.ofNat (b % 16 * 16 + c / 4)]
  | [a, b] => some [UInt8.ofNat (4 * a + b / 16)]
  | [_] => none
  | [] => some []

def Alphabet.decodeBare? (alphabet : Alphabet) (text : Bytes) : Option Bytes := do
  joinValues (← text.mapM alphabet.value?)

def decode? (text : Bytes) : Option Bytes :=
  let solid := text.filter fun b => !isSpace b
  let body := (solid.reverse.dropWhile (· == pad)).reverse
  let filling := solid.length - body.length
  if filling = 0 ∨ (solid.length % 4 = 0 ∧ filling ≤ 2) then standard.decodeBare? body
  else none

end RegistryFront.Base64
