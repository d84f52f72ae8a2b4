import RegistryFront.Keys.PrivateKey
import RegistryFront.Proofs.Asn1.Der

/-!
# RSA keys come back from what is written

The numbers of a key are bounded by its modulus, so that each of them is short enough to be written,
and they are read again in their order.
-/

namespace RegistryFront.Keys

open Asn1 (IsLow Sayable isLow_integer isLow_sequence)

theorem lt_two_pow_bitLength (n : Nat) : n < 2 ^ bitLength n := by
  unfold bitLength
  split
  · next hzero => simp [hzero]
  · exact Nat.lt_log2_self

theorem lt_of_bitLength_le {n width : Nat} (h : bitLength n ≤ 8 * width) : n < 256 ^ width := by
  have hlt := Nat.lt_of_lt_of_le (lt_two_pow_bitLength n) (Nat.pow_le_pow_right (by decide) h)
  rwa [Nat.pow_mul] at hlt

namespace Rsa.Numbers

def toList (k : Numbers) : List Nat :=
  [0, k.modulus, k.publicExponent, k.privateExponent, k.prime1, k.prime2, k.exponent1,
    k.exponent2, k.coefficient]

theorem bitLength_modulus_le {k : Numbers} (h : k.isSound = true) :
    bitLength k.modulus ≤ 8 * 1024 := by
  simp only [isSound, Bool.and_eq_true, decide_eq_true_eq] at h
  omega

theorem bitLength_publicExponent_le {k : Numbers} (h : k.isSound = true) :
    bitLength k.publicExponent ≤ 8 * 5 := by
  simp only [isSound, Bool.and_eq_true, decide_eq_true_eq] at h
  omega

theorem lt_of_mem_toList {k : Numbers} (h : k.isSound = true) {width : Nat} (hwidth : 5 ≤ width)
    (hmodulus : bitLength k.modulus ≤ 8 * width) {n : Nat} (hn : n ∈ k.toList) :
    n < 256 ^ width := by
  have hbound := lt_of_bitLength_le hmodulus
  have hpublic : k.publicExponent < 256 ^ width :=
    lt_of_bitLength_le (Nat.le_trans (bitLength_publicExponent_le h) (by omega))
  simp only [isSound, Bool.and_eq_true, decide_eq_true_eq, beq_iff_eq] at h
  have hprime1 : k.prime1 ≤ k.modulus := by
    have := Nat.le_mul_of_pos_right k.prime1 (show 0 < k.prime2 by omega)
    omega
  have hprime2 : k.prime2 ≤ k.modulus := by
    have := Nat.le_mul_of_pos_left k.prime2 (show 0 < k.prime1 by omega)
    omega
  simp only [toList, List.mem_cons, List.not_mem_nil, or_false] at hn
  rcases hn with rfl | rfl | rfl | rfl | rfl | rfl | rfl | rfl | rfl <;> omega

def parts (k : Numbers) : List (UInt8 × Bytes) :=
  k.toList.map fun n => (Asn1.Tag.integer, Asn1.naturalContent n)

theorem write_eq (k : Numbers) :
    k.write = Asn1.encode Asn1.Tag.sequence (k.parts.flatMap fun part => Asn1.encode part.1 part.2) := by
  simp [write, parts, toList, Asn1.sequence, Asn1.natural_eq]

theorem length_flatMap_le {α : Type} {width : Nat} {list : List α} {f : α → Bytes}
    (h : ∀ a ∈ list, (f a).length ≤ width) : (list.flatMap f).length ≤ list.length * width := by
  induction list with
  | nil => simp
  | cons a rest ih =>
      obtain ⟨hfirst, hrest⟩ := List.forall_mem_cons.mp h
      have := ih hrest
      rw [List.flatMap_cons, List.length_append, List.length_cons, Nat.succ_mul]
      omega

theorem sayable_parts {k : Numbers} (h : k.isSound = true) :
    Sayable (k.parts.flatMap fun part => Asn1.encode part.1 part.2).length := by
  have hpart : ∀ part ∈ k.parts, (Asn1.encode part.1 part.2).length ≤ 2052 := by
    intro part hmem
    obtain ⟨n, hn, rfl⟩ := List.mem_map.mp hmem
    have hcontent := Asn1.length_naturalContent_le
      (lt_of_mem_toList h (by decide) (bitLength_modulus_le h) hn)
    have hvalue := Asn1.length_encode_le Asn1.Tag.integer (Asn1.naturalContent n)
    dsimp only
    omega
  exact Nat.lt_of_le_of_lt (length_flatMap_le hpart) (by simp [parts, toList])

theorem readNaturals_parts (k : Numbers) : readNaturals k.parts = some k.toList := by
  simp [readNaturals, parts, toList, Asn1.readNatural_naturalContent]

theorem read_write {k : Numbers} (h : k.isSound = true) : read k.write = some k := by
  have hlow : ∀ part ∈ k.parts, IsLow part.1 := by
    simp [parts, isLow_integer]
  have hvalues := Asn1.values_flatMap k.parts hlow (sayable_parts h)
  rw [read, write_eq]
  simp only [Asn1.expectAll_encode isLow_sequence (sayable_parts h), hvalues, readNaturals_parts,
    bind, Option.bind_some]
  rfl

end Rsa.Numbers

theorem PrivateKey.readRsa_write (key : RsaKey) : readRsa key.numbers.write = some (.rsa key) := by
  simp only [readRsa, Rsa.Numbers.read_write key.sound, RsaKey.ofNumbers?, key.sound, bind,
    Option.bind_some, dite_true]

end RegistryFront.Keys
