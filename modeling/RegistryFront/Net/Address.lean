import RegistryFront.Text.Utf8

/-!
# Network addresses

An address has four bytes, written as decimal numbers with dots, or sixteen, written as groups of four
hexadecimal digits with colons.  Decimal numbers have no zeros in front.  A run of groups that are zero
may be left out once, and the last two groups may be written as a four byte address.
-/

namespace RegistryFront.Net

structure IpAddress where
  bytes : Bytes
  size : bytes.length = 4 ∨ bytes.length = 16
  deriving DecidableEq, Repr

/-- An address and a port on it.  `scope` tells local networks apart, zero where there is nothing to
tell. -/
structure Endpoint where
  address : IpAddress
  scope : Nat
  port : Nat
  deriving DecidableEq, Repr

/-! ## Reading -/

def digit? (base : Nat) (c : Char) : Option Nat :=
  let value? :=
    if '0' ≤ c ∧ c ≤ '9' then some (c.toNat - 48)
    else if 'a' ≤ c ∧ c ≤ 'f' then some (c.toNat - 87)
    else if 'A' ≤ c ∧ c ≤ 'F' then some (c.toNat - 55)
    else none
  value?.filter (· < base)

structure NumberForm where
  base : Nat
  maxDigits : Option Nat
  limit : Nat
  leadingZeros : Bool

def readNumber (form : NumberForm) (text : List Char) : Option (Nat × List Char) :=
  let digits := text.takeWhile fun c => (digit? form.base c).isSome
  let value := (digits.filterMap (digit? form.base)).foldl (fun n d => form.base * n + d) 0
  if digits = [] then none
  else if form.maxDigits.any (· < digits.length) then none
  else if form.leadingZeros = false ∧ digits.head? = some '0' ∧ 1 < digits.length then none
  else if form.limit ≤ value then none
  else some (value, text.drop digits.length)

def decimalByte : NumberForm := ⟨10, some 3, 256, false⟩

def hexGroup : NumberForm := ⟨16, some 4, 65536, true⟩

def portNumber : NumberForm := ⟨10, none, 65536, true⟩

def scopeNumber : NumberForm := ⟨10, none, 4294967296, true⟩

def readChar (c : Char) : List Char → Option (List Char)
  | found :: rest => if found = c then some rest else none
  | [] => none

def readDotted (text : List Char) : Option (Bytes × List Char) := do
  let (a, text) ← readNumber decimalByte text
  let text ← readChar '.' text
  let (b, text) ← readNumber decimalByte text
  let text ← readChar '.' text
  let (c, text) ← readNumber decimalByte text
  let text ← readChar '.' text
  let (d, text) ← readNumber decimalByte text
  some ([UInt8.ofNat a, UInt8.ofNat b, UInt8.ofNat c, UInt8.ofNat d], text)

structure Groups where
  bytes : Bytes
  dotted : Bool
  rest : List Char

/-- As many groups as there are, at most `room`.  Every group but the first follows a colon. -/
def readGroups : (room : Nat) → (first : Bool) → List Char → Groups
  | 0, _, text => ⟨[], false, text⟩
  | room + 1, first, text =>
      match if first then some text else readChar ':' text with
      | none => ⟨[], false, text⟩
      | some start =>
          match if 0 < room then readDotted start else none with
          | some (bytes, rest) => ⟨bytes, true, rest⟩
          | none =>
              match readNumber hexGroup start with
              | none => ⟨[], false, text⟩
              | some (group, rest) =>
                  let more := readGroups room false rest
                  ⟨UInt8.ofNat (group / 256) :: UInt8.ofNat group :: more.bytes, more.dotted, more.rest⟩

/-- Eight groups, or fewer with `::` for the zeros between. -/
def readGrouped (text : List Char) : Option (Bytes × List Char) :=
  let front := readGroups 8 true text
  if front.bytes.length = 16 then some (front.bytes, front.rest)
  else if front.dotted then none
  else
    match readChar ':' front.rest >>= readChar ':' with
    | none => none
    | some text =>
        let back := readGroups (7 - front.bytes.length / 2) true text
        let zeros := List.replicate (16 - front.bytes.length - back.bytes.length) 0
        some (front.bytes ++ zeros ++ back.bytes, back.rest)

namespace IpAddress

def ofBytes? (bytes : Bytes) : Option IpAddress :=
  if h : bytes.length = 4 ∨ bytes.length = 16 then some ⟨bytes, h⟩ else none

def ofText? (text : String) : Option IpAddress :=
  match (readDotted text.toList).or (readGrouped text.toList) with
  | some (bytes, []) => ofBytes? bytes
  | _ => none

end IpAddress

namespace Endpoint

def ofDotted? (text : List Char) : Option Endpoint := do
  let (bytes, text) ← readDotted text
  let address ← IpAddress.ofBytes? bytes
  let text ← readChar ':' text
  match ← readNumber portNumber text with
  | (port, []) => some ⟨address, 0, port⟩
  | _ => none

def ofBracketed? (text : List Char) : Option Endpoint := do
  let text ← readChar '[' text
  let (bytes, text) ← readGrouped text
  let address ← IpAddress.ofBytes? bytes
  let (scope, text) ←
    match readChar '%' text with
    | some text => readNumber scopeNumber text
    | none => some (0, text)
  let text ← readChar ']' text >>= readChar ':'
  match ← readNumber portNumber text with
  | (port, []) => some ⟨address, scope, port⟩
  | _ => none

def ofText? (text : String) : Option Endpoint :=
  (ofDotted? text.toList).or (ofBracketed? text.toList)

end Endpoint

/-! ## Writing -/

def dottedText (bytes : Bytes) : String := ".".intercalate (bytes.map fun b => toString b.toNat)

def groups : Bytes → List Nat
  | a :: b :: rest => (256 * a.toNat + b.toNat) :: groups rest
  | _ => []

def groupsText (groups : List Nat) : String :=
  ":".intercalate (groups.map fun group => String.ofList (Nat.toDigits 16 group))

def longestZeros (groups : List Nat) : Nat × Nat :=
  let runs := (List.range groups.length).map fun start =>
    (start, ((groups.drop start).takeWhile (· == 0)).length)
  runs.foldl (fun best run => if best.2 < run.2 then run else best) (0, 0)

/-- The first twelve bytes of a four byte address among the long ones. -/
def mappedStart : Bytes := List.replicate 10 0 ++ [0xFF, 0xFF]

namespace IpAddress

def text (address : IpAddress) : String :=
  if address.bytes.length = 4 then dottedText address.bytes
  else if mappedStart.isPrefixOf address.bytes then "::ffff:" ++ dottedText (address.bytes.drop 12)
  else
    let all := groups address.bytes
    let (start, length) := longestZeros all
    if length ≤ 1 then groupsText all
    else groupsText (all.take start) ++ "::" ++ groupsText (all.drop (start + length))

end IpAddress

namespace Endpoint

def text (endpoint : Endpoint) : String :=
  let port := ":" ++ toString endpoint.port
  if endpoint.address.bytes.length = 4 then endpoint.address.text ++ port
  else
    let scope := if endpoint.scope = 0 then "" else "%" ++ toString endpoint.scope
    "[" ++ endpoint.address.text ++ scope ++ "]" ++ port

def onAll (port : Nat) : Endpoint := ⟨⟨[0, 0, 0, 0], .inl rfl⟩, 0, port⟩

end Endpoint

end RegistryFront.Net
