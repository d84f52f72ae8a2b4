import RegistryFront.Text.Utf8

/-!
# Tagged values

A value is a tag, the length of its content and the content.  Lengths below 128 take one byte, longer
ones say first how many bytes they have; there is one right form for each.  Tags fit in one byte.
-/

namespace RegistryFront.Asn1

namespace Tag

def boolean : UInt8 := 0x01
def integer : UInt8 := 0x02
def bitString : UInt8 := 0x03
def octetString : UInt8 := 0x04
def null : UInt8 := 0x05
def objectId : UInt8 := 0x06
def utf8String : UInt8 := 0x0C
def utcTime : UInt8 := 0x17
def generalizedTime : UInt8 := 0x18
def sequence : UInt8 := 0x30
def setOf : UInt8 := 0x31

def context (n : Nat) (constructed : Bool) : UInt8 :=
  UInt8.ofNat (0x80 + (if constructed then 0x20 else 0) + n)

end Tag

/-! ## Writing -/

def bigEndian (n : Nat) : Bytes :=
  if _h : n = 0 then [] else bigEndian (n / 256) ++ [UInt8.ofNat (n % 256)]
termination_by n
decreasing_by omega

def encodeLength (n : Nat) : Bytes :=
  if n < 128 then [UInt8.ofNat n]
  else UInt8.ofNat (0x80 + (bigEndian n).length) :: bigEndian n

def encode (tag : UInt8) (content : Bytes) : Bytes :=
  tag :: encodeLength content.length ++ content

def sequence (parts : List Bytes) : Bytes := encode Tag.sequence parts.flatten

/-- A number without sign; a zero byte keeps the first bit from reading as a sign. -/
def natural (n : Nat) : Bytes :=
  let bytes := bigEndian n
  encode Tag.integer <|
    match bytes with
    | [] => [0]
    | first :: _ => if 128 ≤ first then 0 :: bytes else bytes

def bitString (bytes : Bytes) : Bytes := encode Tag.bitString (0 :: bytes)

def octetString (bytes : Bytes) : Bytes := encode Tag.octetString bytes

def null : Bytes := encode Tag.null []

def boolean (value : Bool) : Bytes := encode Tag.boolean [if value then 0xFF else 0]

/-! ### Object identifiers -/

def base128 (n : Nat) : Bytes :=
  if n < 128 then [UInt8.ofNat n]
  else (base128 (n / 128)).map (fun b => b ||| 0x80) ++ [UInt8.ofNat (n % 128)]
termination_by n
decreasing_by omega

abbrev ObjectId := List Nat

def objectIdContent : ObjectId → Bytes
  | a :: b :: rest => ((40 * a + b) :: rest).flatMap base128
  | _ => []

def objectId (id : ObjectId) : Bytes := encode Tag.objectId (objectIdContent id)

/-! ## Reading -/

def naturalOf (bytes : Bytes) : Nat := bytes.foldl (fun n b => 256 * n + b.toNat) 0

/-- A length and what follows it; only the shortest form is right, of at most four bytes. -/
def readLength : Bytes → Option (Nat × Bytes)
  | [] => none
  | first :: rest =>
      if first < 0x80 then some (first.toNat, rest)
      else
        let count := first.toNat - 0x80
        let digits := rest.take count
        if 1 ≤ count ∧ count ≤ 4 ∧ digits.length = count ∧ 128 ≤ naturalOf digits ∧
            digits.head? ≠ some 0 then
          some (naturalOf digits, rest.drop count)
        else none

def read (bytes : Bytes) : Option (UInt8 × Bytes × Bytes) :=
  match bytes with
  | [] => none
  | tag :: rest =>
      if tag &&& 0x1F = 0x1F then none
      else
        match readLength rest with
        | none => none
        | some (length, rest) =>
            if length ≤ rest.length then some (tag, rest.take length, rest.drop length) else none

def expect (tag : UInt8) (bytes : Bytes) : Option (Bytes × Bytes) :=
  match read bytes with
  | some (found, content, rest) => if found = tag then some (content, rest) else none
  | none => none

def expectAll (tag : UInt8) (bytes : Bytes) : Option Bytes :=
  match expect tag bytes with
  | some (content, []) => some content
  | _ => none

def readAll (fuel : Nat) (bytes : Bytes) : Option (List (UInt8 × Bytes)) :=
  match fuel, bytes with
  | _, [] => some []
  | 0, _ => none
  | fuel + 1, bytes =>
      match read bytes with
      | none => none
      | some (tag, content, rest) => (readAll fuel rest).map ((tag, content) :: ·)

def values (bytes : Bytes) : Option (List (UInt8 × Bytes)) := readAll bytes.length bytes

/-- A number that is not negative, in its shortest form. -/
def readNatural (content : Bytes) : Option Nat :=
  match content with
  | [] => none
  | [b] => if b < 0x80 then some b.toNat else none
  | a :: b :: rest =>
      if 0x80 ≤ a then none
      else if a = 0 ∧ b < 0x80 then none
      else some (naturalOf (a :: b :: rest))

def readBits : Bytes → Option Bytes
  | 0 :: bytes => some bytes
  | _ => none

def readBase128 (value : Nat) : Bytes → Option (List Nat)
  | [] => if value = 0 then some [] else none
  | b :: rest =>
      let next := 128 * value + b.toNat % 128
      if 0x80 ≤ b then readBase128 next rest
      else (readBase128 0 rest).map (next :: ·)

def readObjectId (content : Bytes) : Option ObjectId :=
  match readBase128 0 content with
  | some (first :: rest) => some (min (first / 40) 2 :: (first - 40 * min (first / 40) 2) :: rest)
  | _ => none

def ObjectId.text (id : ObjectId) : String := ".".intercalate (id.map toString)

end RegistryFront.Asn1
