import Mathlib.Algebra.Group.Nat.Defs
import Mathlib.Data.List.Basic
import RegistryFront.Asn1.Der

/-!
# Values come back from what is written

A value whose content is not too long for a length of four bytes is read as it was written, whatever
follows it.
-/

namespace RegistryFront.Asn1

/-! ## Lengths -/

theorem naturalOf_append_singleton (bytes : Bytes) (b : UInt8) :
    naturalOf (bytes ++ [b]) = 256 * naturalOf bytes + b.toNat := by
  simp [naturalOf]

@[simp] theorem naturalOf_bigEndian (n : Nat) : naturalOf (bigEndian n) = n := by
  fun_induction bigEndian n with
  | case1 => rfl
  | case2 n hn ih =>
      rw [naturalOf_append_singleton, ih, UInt8.toNat_ofNat_of_lt' (Nat.mod_lt _ (by decide))]
      exact Nat.div_add_mod n 256

theorem length_bigEndian_le {n width : Nat} (h : n < 256 ^ width) :
    (bigEndian n).length ≤ width := by
  induction width generalizing n with
  | zero =>
      obtain rfl : n = 0 := by simpa using h
      simp [bigEndian]
  | succ width ih =>
      rw [bigEndian]
      split
      · simp
      · have hdiv : n / 256 < 256 ^ width := by
          rw [Nat.pow_succ] at h
          omega
        have := ih hdiv
        simp only [List.length_append, List.length_singleton]
        omega

theorem head?_bigEndian_ne (n : Nat) : (bigEndian n).head? ≠ some 0 := by
  fun_induction bigEndian n with
  | case1 => simp
  | case2 n hn ih =>
      by_cases hdiv : n / 256 = 0
      · have hlt : n < 256 := by omega
        have hne : UInt8.ofNat n ≠ 0 := by
          intro heq
          have := congrArg UInt8.toNat heq
          rw [UInt8.toNat_ofNat_of_lt' hlt] at this
          exact hn this
        simpa [hdiv, bigEndian, Nat.mod_eq_of_lt hlt] using hne
      · cases hbytes : bigEndian (n / 256) with
        | nil =>
            have := naturalOf_bigEndian (n / 256)
            rw [hbytes] at this
            exact absurd this.symm hdiv
        | cons b rest => rwa [hbytes] at ih

/-- The length can be said in four bytes. -/
def Sayable (length : Nat) : Prop := length < 256 ^ 4

theorem readLength_encodeLength {length : Nat} (h : Sayable length) (rest : Bytes) :
    readLength (encodeLength length ++ rest) = some (length, rest) := by
  unfold Sayable at h
  unfold encodeLength
  split
  · next hshort =>
      have hnat : (UInt8.ofNat length).toNat = length :=
        UInt8.toNat_ofNat_of_lt' (Nat.lt_trans hshort (by decide))
      have hlt : UInt8.ofNat length < 0x80 := by
        rw [UInt8.lt_iff_toNat_lt, hnat]
        exact hshort
      simp [readLength, hlt, hnat]
  · next hlong =>
      have hle := length_bigEndian_le h
      have hpos : 1 ≤ (bigEndian length).length := by
        rw [bigEndian, dif_neg (by omega)]
        simp
      have hnat : (UInt8.ofNat (0x80 + (bigEndian length).length)).toNat =
          0x80 + (bigEndian length).length :=
        UInt8.toNat_ofNat_of_lt' (show _ < 256 by omega)
      have hfirst : ¬ UInt8.ofNat (0x80 + (bigEndian length).length) < 0x80 := by
        rw [UInt8.lt_iff_toNat_lt, hnat]
        exact Nat.not_lt.mpr (Nat.le_add_right _ _)
      have hhead := head?_bigEndian_ne length
      simp only [List.cons_append, readLength, hfirst, if_false, hnat, Nat.add_sub_cancel_left,
        List.take_left, List.drop_left, naturalOf_bigEndian]
      rw [if_pos ⟨hpos, hle, trivial, Nat.not_lt.mp hlong, hhead⟩]

/-! ## Values -/

def IsLow (tag : UInt8) : Prop := tag &&& 0x1F ≠ 0x1F

instance (tag : UInt8) : Decidable (IsLow tag) := inferInstanceAs (Decidable (_ ≠ _))

theorem isLow_integer : IsLow Tag.integer := by decide

theorem isLow_bitString : IsLow Tag.bitString := by decide

theorem isLow_octetString : IsLow Tag.octetString := by decide

theorem isLow_objectId : IsLow Tag.objectId := by decide

theorem isLow_sequence : IsLow Tag.sequence := by decide

theorem isLow_setOf : IsLow Tag.setOf := by decide

variable {tag : UInt8} {content : Bytes}

theorem read_encode (htag : IsLow tag) (h : Sayable content.length) (rest : Bytes) :
    read (encode tag content ++ rest) = some (tag, content, rest) := by
  simp only [encode, List.cons_append, List.append_assoc, read, if_neg htag,
    readLength_encodeLength h, List.length_append, Nat.le_add_right, if_true, List.take_left,
    List.drop_left]

theorem expect_encode (htag : IsLow tag) (h : Sayable content.length) (rest : Bytes) :
    expect tag (encode tag content ++ rest) = some (content, rest) := by
  simp [expect, read_encode htag h]

theorem expect_encode_alone (htag : IsLow tag) (h : Sayable content.length) :
    expect tag (encode tag content) = some (content, []) := by
  have hexpect := expect_encode htag h []
  rwa [List.append_nil] at hexpect

theorem expectAll_encode (htag : IsLow tag) (h : Sayable content.length) :
    expectAll tag (encode tag content) = some content := by
  simp [expectAll, expect_encode_alone htag h]

theorem length_lt_encode (tag : UInt8) (content : Bytes) :
    content.length < (encode tag content).length := by
  simp only [encode, List.length_cons, List.length_append]
  omega

theorem length_encode_le (tag : UInt8) (content : Bytes) :
    (encode tag content).length ≤ 2 * content.length + 2 := by
  have hdigits : (bigEndian content.length).length ≤ content.length :=
    length_bigEndian_le (Nat.lt_pow_self (by decide))
  rw [encode, encodeLength]
  split
  · simp only [List.cons_append, List.nil_append, List.length_cons]
    omega
  · simp only [List.cons_append, List.length_cons, List.length_append]
    omega

theorem length_encode_le_add (tag : UInt8) {content : Bytes} (h : content.length < 256 ^ 2) :
    (encode tag content).length ≤ content.length + 4 := by
  have hdigits := length_bigEndian_le h
  rw [encode, encodeLength]
  split
  · simp only [List.cons_append, List.nil_append, List.length_cons]
    omega
  · simp only [List.cons_append, List.length_cons, List.length_append]
    omega

theorem natural_zero : natural 0 = encode Tag.integer [0] := by
  simp [natural, bigEndian]

theorem natural_one : natural 1 = encode Tag.integer [1] := by
  simp [natural, bigEndian]

theorem Sayable.of_le {length other : Nat} (h : Sayable length) (hle : other ≤ length) :
    Sayable other := Nat.lt_of_le_of_lt hle h

theorem length_lt_split {limit : Nat} {rest : Bytes}
    (h : (encode tag content ++ rest).length < limit) :
    content.length < limit ∧ rest.length < limit := by
  have := length_lt_encode tag content
  rw [List.length_append] at h
  omega

theorem Sayable.split {rest : Bytes} (h : Sayable (encode tag content ++ rest).length) :
    Sayable content.length ∧ Sayable rest.length :=
  length_lt_split h

theorem expect_front {rest : Bytes} (htag : IsLow tag)
    (h : Sayable (encode tag content ++ rest).length) :
    expect tag (encode tag content ++ rest) = some (content, rest) :=
  expect_encode htag h.split.1 rest

theorem Sayable.inside (h : Sayable (encode tag content).length) : Sayable content.length :=
  h.of_le (Nat.le_of_lt (length_lt_encode tag content))

theorem readAll_flatMap {parts : List (UInt8 × Bytes)}
    (hparts : ∀ part ∈ parts, IsLow part.1 ∧ Sayable part.2.length) {fuel : Nat}
    (hfuel : parts.length ≤ fuel) :
    readAll fuel (parts.flatMap fun part => encode part.1 part.2) = some parts := by
  induction parts generalizing fuel with
  | nil => cases fuel <;> rfl
  | cons part rest ih =>
      obtain ⟨⟨htag, hcontent⟩, hrest⟩ := List.forall_mem_cons.mp hparts
      obtain ⟨fuel, rfl⟩ : ∃ less, fuel = less + 1 := ⟨fuel - 1, by simp at hfuel; omega⟩
      have hread := read_encode htag hcontent (rest.flatMap fun part => encode part.1 part.2)
      have hmore := ih hrest (Nat.le_of_succ_le_succ hfuel)
      rw [List.flatMap_cons]
      cases htext : encode part.1 part.2 ++ rest.flatMap fun part => encode part.1 part.2 with
      | nil => simp [encode] at htext
      | cons b others =>
          rw [htext] at hread
          simp [readAll, hread, hmore]

theorem values_flatMap (parts : List (UInt8 × Bytes)) (htags : ∀ part ∈ parts, IsLow part.1)
    (h : Sayable (parts.flatMap fun part => encode part.1 part.2).length) :
    values (parts.flatMap fun part => encode part.1 part.2) = some parts := by
  have hsayable (part : UInt8 × Bytes) (hpart : part ∈ parts) : Sayable part.2.length := by
    have hsub := List.sublist_flatten_of_mem
      (List.mem_map_of_mem (f := fun part : UInt8 × Bytes => encode part.1 part.2) hpart)
    exact Sayable.inside (h.of_le hsub.length_le)
  refine readAll_flatMap (fun part hpart => ⟨htags part hpart, hsayable part hpart⟩) ?_
  clear htags h hsayable
  induction parts with
  | nil => simp
  | cons part rest ih =>
      have := length_lt_encode part.1 part.2
      simp only [List.length_cons, List.flatMap_cons, List.length_append]
      omega

/-! ## Numbers -/

def naturalContent (n : Nat) : Bytes :=
  match bigEndian n with
  | [] => [0]
  | first :: rest => if 128 ≤ first then 0 :: first :: rest else first :: rest

theorem natural_eq (n : Nat) : natural n = encode Tag.integer (naturalContent n) := by
  rw [natural, naturalContent]
  cases bigEndian n <;> rfl

theorem length_naturalContent_le {n width : Nat} (h : n < 256 ^ width) :
    (naturalContent n).length ≤ width + 1 := by
  have hdigits := length_bigEndian_le h
  rw [naturalContent]
  split
  · simp
  · next hbytes =>
      rw [hbytes, List.length_cons] at hdigits
      split <;> simp only [List.length_cons] <;> omega

theorem readNatural_naturalContent (n : Nat) : readNatural (naturalContent n) = some n := by
  have hvalue := naturalOf_bigEndian n
  have hhead := head?_bigEndian_ne n
  rw [naturalContent]
  cases hbytes : bigEndian n with
  | nil =>
      rw [hbytes] at hvalue
      exact congrArg some hvalue
  | cons first rest =>
      rw [hbytes] at hvalue hhead
      have hne : first ≠ 0 := by simpa using hhead
      dsimp only
      split
      · next hhigh =>
          -- the zero in front is no part of the number
          have hzero : naturalOf (0 :: first :: rest) = naturalOf (first :: rest) := rfl
          have hlow : ¬ first < 0x80 := UInt8.not_lt.mpr hhigh
          simp [readNatural, hlow, hzero, hvalue]
      · next hlow =>
          cases rest with
          | nil =>
              have hbyte : naturalOf [first] = first.toNat := by simp [naturalOf]
              simp [readNatural, UInt8.not_le.mp hlow, ← hvalue, hbyte]
          | cons second rest =>
              have hlow : ¬ (0x80 : UInt8) ≤ first := hlow
              simp [readNatural, hlow, hne, hvalue]

end RegistryFront.Asn1
