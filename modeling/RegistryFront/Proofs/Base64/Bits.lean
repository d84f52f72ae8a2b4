import Mathlib.Data.List.TakeWhile
import RegistryFront.Proofs.Base64

/-!
# Base64 by bits

What a text in base64 stands for: each character is for six bits, and each byte has eight of them.
-/

namespace RegistryFront.Base64

/-! ## Bits -/

def bits : Nat → Nat → List Nat
  | 0, _ => []
  | width + 1, n => bits width (n / 2) ++ [n % 2]

def byteBits (b : UInt8) : List Nat := bits 8 b.toNat

@[simp] theorem length_bits (width n : Nat) : (bits width n).length = width := by
  induction width generalizing n with
  | zero => rfl
  | succ width ih => simp [bits, ih]

theorem bits_append (width more : Nat) {n : Nat} (hn : n < Nat.pow 2 more) (high : Nat) :
    bits (width + more) (high * Nat.pow 2 more + n) = bits width high ++ bits more n := by
  induction more generalizing n with
  | zero =>
      obtain rfl : n = 0 := by simpa using hn
      simp [bits]
  | succ more ih =>
      have hpow : Nat.pow 2 (more + 1) = Nat.pow 2 more * 2 := rfl
      rw [hpow] at hn ⊢
      have hhalf := ih (n := n / 2) (by omega)
      have hlow : (high * (Nat.pow 2 more * 2) + n) / 2 = high * Nat.pow 2 more + n / 2 := by
        rw [← Nat.mul_assoc]
        omega
      have hlast : (high * (Nat.pow 2 more * 2) + n) % 2 = n % 2 := by
        rw [← Nat.mul_assoc]
        omega
      rw [← Nat.add_assoc, bits, hlow, hlast, hhalf, bits, List.append_assoc]

theorem bits_injective {width n m : Nat} (hn : n < Nat.pow 2 width) (hm : m < Nat.pow 2 width)
    (h : bits width n = bits width m) : n = m := by
  induction width generalizing n m with
  | zero => simp_all
  | succ width ih =>
      have hpow : Nat.pow 2 (width + 1) = Nat.pow 2 width * 2 := rfl
      obtain ⟨hhigh, hlow⟩ := List.append_inj h (by simp)
      have hhalf := ih (n := n / 2) (m := m / 2) (by omega) (by omega) hhigh
      have hlast : n % 2 = m % 2 := by simpa using hlow
      omega

@[simp] theorem length_byteBits (b : UInt8) : (byteBits b).length = 8 := length_bits 8 _

theorem length_flatMap_bits (values : List Nat) :
    (values.flatMap (bits 6)).length = 6 * values.length := by
  induction values with
  | nil => rfl
  | cons n rest ih => simp [ih]; omega

theorem length_flatMap_byteBits (bytes : Bytes) :
    (bytes.flatMap byteBits).length = 8 * bytes.length := by
  induction bytes with
  | nil => rfl
  | cons b rest ih => simp [ih]; omega

theorem flatMap_byteBits_injective {bytes others : Bytes}
    (h : bytes.flatMap byteBits = others.flatMap byteBits) : bytes = others := by
  have hlength := congrArg List.length h
  rw [length_flatMap_byteBits, length_flatMap_byteBits] at hlength
  induction bytes generalizing others with
  | nil => cases others <;> simp_all
  | cons b rest ih =>
      cases others with
      | nil => simp at hlength
      | cons c others =>
          obtain ⟨hfirst, hrest⟩ := List.append_inj h (by simp)
          have hb := bits_injective b.toNat_lt c.toNat_lt hfirst
          rw [UInt8.toNat_inj.mp hb, ih hrest (by simp at hlength; omega)]

/-! ## Groups of four -/

section

variable {a b c d : Nat}

theorem byteBits_ofNat {n : Nat} (h : n < 256) : byteBits (UInt8.ofNat n) = bits 8 n := by
  rw [byteBits, UInt8.toNat_ofNat_of_lt' h]

theorem bits_second (b : Nat) : bits 6 b = bits 2 (b / 16) ++ bits 4 (b % 16) := by
  have hcut := bits_append 2 4 (Nat.mod_lt b (by decide : 0 < 16)) (b / 16)
  rwa [show b / 16 * Nat.pow 2 4 + b % 16 = b from Nat.div_add_mod' b 16] at hcut

theorem bits_third (c : Nat) : bits 6 c = bits 4 (c / 4) ++ bits 2 (c % 4) := by
  have hcut := bits_append 4 2 (Nat.mod_lt c (by decide : 0 < 4)) (c / 4)
  rwa [show c / 4 * Nat.pow 2 2 + c % 4 = c from Nat.div_add_mod' c 4] at hcut

theorem byteBits_first (ha : a < 64) (hb : b < 64) :
    byteBits (UInt8.ofNat (4 * a + b / 16)) = bits 6 a ++ bits 2 (b / 16) := by
  have hlow : b / 16 < 4 := by omega
  rw [byteBits_ofNat (by omega), Nat.mul_comm]
  exact bits_append 6 2 hlow a

theorem byteBits_second (b : Nat) (hc : c < 64) :
    byteBits (UInt8.ofNat (b % 16 * 16 + c / 4)) = bits 4 (b % 16) ++ bits 4 (c / 4) := by
  have hlow : c / 4 < 16 := by omega
  rw [byteBits_ofNat (by omega)]
  exact bits_append 4 4 hlow (b % 16)

theorem byteBits_third (c : Nat) (hd : d < 64) :
    byteBits (UInt8.ofNat (c % 4 * 64 + d)) = bits 2 (c % 4) ++ bits 6 d := by
  rw [byteBits_ofNat (by omega)]
  exact bits_append 2 6 hd (c % 4)

end

/-- The bits of the groups of six are those of the bytes, with fewer than six to spare. -/
def Regroups (values : List Nat) (bytes : Bytes) : Prop :=
  ∃ spare, values.flatMap (bits 6) = bytes.flatMap byteBits ++ spare ∧ spare.length < 6

theorem Regroups.unique {values : List Nat} {bytes others : Bytes} (h : Regroups values bytes)
    (hothers : Regroups values others) : bytes = others := by
  obtain ⟨spare, hbits, hspare⟩ := h
  obtain ⟨more, hmore, hlength⟩ := hothers
  rw [hbits] at hmore
  have hcount := congrArg List.length hmore
  simp only [List.length_append, length_flatMap_byteBits] at hcount
  refine flatMap_byteBits_injective (List.append_inj hmore ?_).1
  rw [length_flatMap_byteBits, length_flatMap_byteBits]
  omega

theorem regroups_of_joinValues {values : List Nat} {bytes : Bytes} (hvalues : ∀ n ∈ values, n < 64)
    (h : joinValues values = some bytes) : Regroups values bytes := by
  fun_induction joinValues values generalizing bytes with
  | case1 a b c d rest ih =>
      simp only [List.forall_mem_cons] at hvalues
      obtain ⟨ha, hb, hc, hd, hrest⟩ := hvalues
      obtain ⟨more, hmore, hbytes⟩ := Option.bind_eq_some_iff.mp h
      obtain ⟨spare, hbits, hspare⟩ := ih hrest hmore
      obtain rfl := Option.some.inj hbytes
      refine ⟨spare, ?_, hspare⟩
      simp only [List.flatMap_cons, List.append_assoc, byteBits_first ha hb, byteBits_second b hc,
        byteBits_third c hd, bits_second b, bits_third c, hbits]
  | case2 a b c =>
      simp only [List.forall_mem_cons] at hvalues
      obtain ⟨ha, hb, hc, -⟩ := hvalues
      obtain rfl := Option.some.inj h
      refine ⟨bits 2 (c % 4), ?_, by simp⟩
      simp only [List.flatMap_cons, List.flatMap_nil, List.append_assoc, List.append_nil,
        byteBits_first ha hb, byteBits_second b hc, bits_second b, bits_third c]
  | case3 a b =>
      simp only [List.forall_mem_cons] at hvalues
      obtain ⟨ha, hb, -⟩ := hvalues
      obtain rfl := Option.some.inj h
      refine ⟨bits 4 (b % 16), ?_, by simp⟩
      simp only [List.flatMap_cons, List.flatMap_nil, List.append_assoc, List.append_nil,
        byteBits_first ha hb, bits_second b]
  | case4 => cases h
  | case5 =>
      obtain rfl := Option.some.inj h
      exact ⟨[], rfl, by simp⟩

theorem exists_joinValues {values : List Nat} (h : values.length % 4 ≠ 1) :
    ∃ bytes, joinValues values = some bytes := by
  fun_induction joinValues values with
  | case1 a b c d rest ih =>
      obtain ⟨more, hmore⟩ := ih (by simp only [List.length_cons] at h; omega)
      rw [hmore]
      exact ⟨_, rfl⟩
  | case2 | case3 | case5 => exact ⟨_, rfl⟩
  | case4 => exact absurd rfl h

theorem joinValues_eq_some_iff {values : List Nat} {bytes : Bytes} (hvalues : ∀ n ∈ values, n < 64) :
    joinValues values = some bytes ↔ Regroups values bytes := by
  refine ⟨regroups_of_joinValues hvalues, fun h => ?_⟩
  have hlength : values.length % 4 ≠ 1 := by
    obtain ⟨spare, hbits, hspare⟩ := h
    have hcount := congrArg List.length hbits
    rw [length_flatMap_bits, List.length_append, length_flatMap_byteBits] at hcount
    omega
  obtain ⟨others, hothers⟩ := exists_joinValues hlength
  rw [hothers, h.unique (regroups_of_joinValues hvalues hothers)]

/-! ## Texts -/

theorem value?_eq_some_iff {b : UInt8} {n : Nat} :
    standard.value? b = some n ↔ n < 64 ∧ standard.char n = b := by
  have hall : ∀ m < 256, ∀ n ∈ standard.value? (UInt8.ofNat m),
      n < 64 ∧ standard.char n = UInt8.ofNat m := by decide +kernel
  constructor
  · intro h
    have hb := hall b.toNat b.toNat_lt n
    rw [UInt8.ofNat_toNat] at hb
    exact hb h
  · rintro ⟨hn, rfl⟩
    exact reads_standard n hn

theorem mapM_value?_eq_some_iff {text : Bytes} {values : List Nat} :
    text.mapM standard.value? = some values ↔
      (∀ n ∈ values, n < 64) ∧ text = values.map standard.char := by
  constructor
  · intro h
    induction text generalizing values with
    | nil =>
        obtain rfl : values = [] := by simpa using h.symm
        simp
    | cons b rest ih =>
        rw [List.mapM_cons] at h
        obtain ⟨n, hn, h⟩ := Option.bind_eq_some_iff.mp h
        obtain ⟨others, hothers, h⟩ := Option.bind_eq_some_iff.mp h
        obtain rfl := Option.some.inj h
        obtain ⟨hlt, rfl⟩ := value?_eq_some_iff.mp hn
        obtain ⟨hrest, rfl⟩ := ih hothers
        simpa [hlt] using hrest
  · rintro ⟨hvalues, rfl⟩
    exact reads_standard.mapM_char hvalues

/-- White space aside, the text is characters for groups of six bits, filled up to whole groups of four
characters or not at all, and the bits are those of the bytes, with fewer than six to spare. -/
def Spells (text bytes : Bytes) : Prop :=
  ∃ (values : List Nat) (filling : Nat), (∀ n ∈ values, n < 64) ∧
    text.filter (fun b => !isSpace b) = values.map standard.char ++ List.replicate filling pad ∧
    (filling = 0 ∨ filling ≤ 2 ∧ (values.length + filling) % 4 = 0) ∧ Regroups values bytes

theorem decodeBare?_eq_some_iff {text bytes : Bytes} :
    standard.decodeBare? text = some bytes ↔
      ∃ values, (∀ n ∈ values, n < 64) ∧ text = values.map standard.char ∧ Regroups values bytes := by
  rw [Alphabet.decodeBare?, Option.bind_eq_bind, Option.bind_eq_some_iff]
  constructor
  · rintro ⟨values, hvalues, hjoin⟩
    obtain ⟨hlt, htext⟩ := mapM_value?_eq_some_iff.mp hvalues
    exact ⟨values, hlt, htext, (joinValues_eq_some_iff hlt).mp hjoin⟩
  · rintro ⟨values, hlt, htext, hregroups⟩
    exact ⟨values, mapM_value?_eq_some_iff.mpr ⟨hlt, htext⟩,
      (joinValues_eq_some_iff hlt).mpr hregroups⟩

theorem exists_append_pad (text : Bytes) :
    ∃ filling, text = (text.reverse.dropWhile (· == pad)).reverse ++ List.replicate filling pad := by
  refine ⟨(text.reverse.takeWhile (· == pad)).length, ?_⟩
  have hpad : ∀ b ∈ (text.reverse.takeWhile (· == pad)).reverse, b = pad := by
    intro b hb
    simpa using List.mem_takeWhile_imp (List.mem_reverse.mp hb)
  rw [← List.length_reverse, ← List.eq_replicate_of_mem hpad, ← List.reverse_append,
    List.takeWhile_append_dropWhile, List.reverse_reverse]

/-- Reading gives the bytes that the text spells, and nothing if it spells none. -/
theorem decode?_eq_some_iff {text bytes : Bytes} : decode? text = some bytes ↔ Spells text bytes := by
  simp only [decode?, Option.ite_none_right_eq_some, decodeBare?_eq_some_iff]
  constructor
  · rintro ⟨hfilling, values, hvalues, hbody, hregroups⟩
    obtain ⟨filling, hsolid⟩ := exists_append_pad (text.filter fun b => !isSpace b)
    rw [hbody] at hsolid hfilling
    refine ⟨values, filling, hvalues, hsolid, ?_, hregroups⟩
    rw [hsolid] at hfilling
    simp only [List.length_append, List.length_map, List.length_replicate] at hfilling
    omega
  · rintro ⟨values, filling, hvalues, hsolid, hfilling, hregroups⟩
    have hbare : ∀ b ∈ values.map standard.char, b ≠ pad := by
      intro b hb
      obtain ⟨n, hn, rfl⟩ := List.mem_map.mp hb
      exact (char_solid n (hvalues n hn)).1
    rw [hsolid, dropWhile_pad hbare]
    refine ⟨?_, values, hvalues, rfl, hregroups⟩
    simp only [List.length_append, List.length_map, List.length_replicate]
    omega

example : decode? [90, 109, 56, 61] = some [102, 111] ∧ decode? [90, 109, 56] = some [102, 111] ∧
    decode? [90, 109, 56, 61, 61] = none := by decide

end RegistryFront.Base64
