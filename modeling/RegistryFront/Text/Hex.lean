/-!
# Bytes as hexadecimal digits

Two lowercase digits a byte; reading takes either case.
-/

namespace RegistryFront.Text.Hex

def digit (n : Nat) : Char := Nat.digitChar n

def digitValue? (c : Char) : Option Nat :=
  if '0' ≤ c ∧ c ≤ '9' then some (c.toNat - 48)
  else if 'a' ≤ c ∧ c ≤ 'f' then some (c.toNat - 87)
  else if 'A' ≤ c ∧ c ≤ 'F' then some (c.toNat - 55)
  else none

def encodeChars (bytes : List UInt8) : List Char :=
  bytes.flatMap fun b => [digit (b.toNat / 16), digit (b.toNat % 16)]

def encode (bytes : List UInt8) : String := String.ofList (encodeChars bytes)

def decodeChars? : List Char → Option (List UInt8)
  | [] => some []
  | [_] => none
  | high :: low :: rest => do
      let h ← digitValue? high
      let l ← digitValue? low
      let bytes ← decodeChars? rest
      some (UInt8.ofNat (16 * h + l) :: bytes)

def decode? (text : String) : Option (List UInt8) := decodeChars? text.toList

end RegistryFront.Text.Hex
