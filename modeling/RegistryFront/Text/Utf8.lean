/-!
# UTF-8

`encode` writes the bytes of a text, `decode?` reads them back and refuses anything else: overlong
forms, surrogates, code points past U+10FFFF and cut sequences.  `decodeLossy` puts U+FFFD for each
longest start of a character that cannot be finished.
-/

namespace RegistryFront

abbrev Bytes := List UInt8

namespace Text.Utf8

def encodeChar (c : Char) : List UInt8 :=
  let n := c.toNat
  if n < 0x80 then [UInt8.ofNat n]
  else if n < 0x800 then
    [UInt8.ofNat (0xC0 + n / 0x40), UInt8.ofNat (0x80 + n % 0x40)]
  else if n < 0x10000 then
    [UInt8.ofNat (0xE0 + n / 0x1000), UInt8.ofNat (0x80 + n / 0x40 % 0x40),
      UInt8.ofNat (0x80 + n % 0x40)]
  else
    [UInt8.ofNat (0xF0 + n / 0x40000), UInt8.ofNat (0x80 + n / 0x1000 % 0x40),
      UInt8.ofNat (0x80 + n / 0x40 % 0x40), UInt8.ofNat (0x80 + n % 0x40)]

def encodeChars (text : List Char) : List UInt8 := text.flatMap encodeChar

def encode (text : String) : List UInt8 := encodeChars text.toList

def size (text : String) : Nat := (encode text).length

/-! ## Reading -/

def isTail (b : UInt8) : Bool := 0x80 ≤ b && b ≤ 0xBF

def secondFits (first second : UInt8) : Bool :=
  if first == 0xE0 then 0xA0 ≤ second && second ≤ 0xBF
  else if first == 0xED then 0x80 ≤ second && second ≤ 0x9F
  else if first == 0xF0 then 0x90 ≤ second && second ≤ 0xBF
  else if first == 0xF4 then 0x80 ≤ second && second ≤ 0x8F
  else isTail second

/-- How many bytes a character with this first byte has; zero if none begins with it. -/
def lengthFrom (first : UInt8) : Nat :=
  if first < 0x80 then 1
  else if 0xC2 ≤ first && first ≤ 0xDF then 2
  else if 0xE0 ≤ first && first ≤ 0xEF then 3
  else if 0xF0 ≤ first && first ≤ 0xF4 then 4
  else 0

def decodeChar? : List UInt8 → Option (Char × List UInt8)
  | [] => none
  | a :: rest =>
      match lengthFrom a, rest with
      | 1, rest => some (Char.ofNat a.toNat, rest)
      | 2, b :: rest =>
          if isTail b then
            some (Char.ofNat ((a.toNat - 0xC0) * 0x40 + (b.toNat - 0x80)), rest)
          else none
      | 3, b :: c :: rest =>
          if secondFits a b && isTail c then
            some (Char.ofNat ((a.toNat - 0xE0) * 0x1000 + (b.toNat - 0x80) * 0x40 +
              (c.toNat - 0x80)), rest)
          else none
      | 4, b :: c :: d :: rest =>
          if secondFits a b && isTail c && isTail d then
            some (Char.ofNat ((a.toNat - 0xF0) * 0x40000 + (b.toNat - 0x80) * 0x1000 +
              (c.toNat - 0x80) * 0x40 + (d.toNat - 0x80)), rest)
          else none
      | _, _ => none

theorem decodeChar?_length {bytes rest : List UInt8} {c : Char}
    (h : decodeChar? bytes = some (c, rest)) : rest.length < bytes.length := by
  unfold decodeChar? at h
  split at h
  · simp at h
  · split at h
    · simp only [Option.some.injEq, Prod.mk.injEq] at h
      obtain ⟨-, rfl⟩ := h
      simp
    · split at h
      · simp only [Option.some.injEq, Prod.mk.injEq] at h
        obtain ⟨-, rfl⟩ := h
        simp only [List.length_cons]
        omega
      · simp at h
    · split at h
      · simp only [Option.some.injEq, Prod.mk.injEq] at h
        obtain ⟨-, rfl⟩ := h
        simp only [List.length_cons]
        omega
      · simp at h
    · split at h
      · simp only [Option.some.injEq, Prod.mk.injEq] at h
        obtain ⟨-, rfl⟩ := h
        simp only [List.length_cons]
        omega
      · simp at h
    · simp at h

def decodeChars? (bytes : List UInt8) : Option (List Char) :=
  match _hb : bytes with
  | [] => some []
  | _ :: _ =>
      match _h : decodeChar? bytes with
      | none => none
      | some (c, rest) => (decodeChars? rest).map (c :: ·)
termination_by bytes.length
decreasing_by
  have := decodeChar?_length _h
  simp_all

def decode? (bytes : List UInt8) : Option String :=
  (decodeChars? bytes).map String.ofList

/-- How many bytes at the front of an unreadable sequence are replaced together. -/
def brokenLength : List UInt8 → Nat
  | [] => 0
  | a :: rest =>
      match lengthFrom a, rest with
      | 3, b :: _ => if secondFits a b then 2 else 1
      | 4, b :: c :: _ => if secondFits a b then (if isTail c then 3 else 2) else 1
      | 4, [b] => if secondFits a b then 2 else 1
      | _, _ => 1

def decodeLossyChars (bytes : List UInt8) : List Char :=
  match _hb : bytes with
  | [] => []
  | _ :: tail =>
      match _h : decodeChar? bytes with
      | some (c, rest) => c :: decodeLossyChars rest
      | none => '\uFFFD' :: decodeLossyChars (tail.drop (brokenLength bytes - 1))
termination_by bytes.length
decreasing_by
  · have := decodeChar?_length _h
    simp_all
  · simp only [List.length_drop, List.length_cons]
    omega

def decodeLossy (bytes : List UInt8) : String := String.ofList (decodeLossyChars bytes)

end Text.Utf8

end RegistryFront
