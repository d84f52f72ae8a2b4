import RegistryFront.Base64.Strict
import RegistryFront.Proofs.Base64
import RegistryFront.Proofs.Text.Utf8

/-!
# What is written for addresses is read without a fault

The characters all have a value, the last group is never a single one, and no bit of it is to spare.
-/

namespace RegistryFront.Base64

/-! ## The last group -/

def lastGroup (values : List Nat) : List Nat := values.drop ((values.length - 1) / 4 * 4)

theorem lastGroup_append {group values : List Nat} (hgroup : group.length = 4)
    (hne : values ≠ []) : lastGroup (group ++ values) = lastGroup values := by
  have hpos := List.length_pos_iff.mpr hne
  have hstart : ((group ++ values).length - 1) / 4 * 4 =
      group.length + (values.length - 1) / 4 * 4 := by
    rw [List.length_append]
    omega
  rw [lastGroup, hstart, List.drop_append, List.drop_eq_nil_of_le (by omega), List.nil_append,
    Nat.add_sub_cancel_left, lastGroup]

theorem lastGroup_sextets (bytes : Bytes) :
    sextets bytes = [] ∨
      2 ≤ (lastGroup (sextets bytes)).length ∧
        Strict.hasSpareBits (lastGroup (sextets bytes)) = false := by
  fun_induction sextets bytes with
  | case1 a b c rest ih =>
      refine .inr ?_
      rcases ih with hnil | hlast
      · simp [hnil, lastGroup, Strict.hasSpareBits]
      · -- the groups before the last one are whole
        have hne : sextets rest ≠ [] := by
          intro hnil
          simp [hnil, lastGroup] at hlast
        have hgroup : [a.toNat / 4, a.toNat % 4 * 16 + b.toNat / 16,
            b.toNat % 16 * 4 + c.toNat / 64, c.toNat % 64].length = 4 := rfl
        have hfront := lastGroup_append hgroup hne
        rw [List.cons_append, List.cons_append, List.cons_append, List.cons_append,
          List.nil_append] at hfront
        rwa [hfront]
  | case2 a b => exact .inr ⟨by simp [lastGroup], by simp [lastGroup, Strict.hasSpareBits]⟩
  | case3 a => exact .inr ⟨by simp [lastGroup], by simp [lastGroup, Strict.hasSpareBits]⟩
  | case4 => exact .inl rfl

/-! ## Looking for faults -/

theorem urlSafe_char : ∀ n < 64, urlSafe.char n ≠ pad ∧ urlSafe.char n < 128 := by decide

variable {values : List Nat}

theorem Strict.firstFault?_char (h : ∀ n ∈ values, n < 64) (offset : Nat) :
    firstFault? offset (values.map urlSafe.char) = none := by
  induction values generalizing offset with
  | nil => rfl
  | cons n rest ih =>
      obtain ⟨hn, hrest⟩ := List.forall_mem_cons.mp h
      simp [firstFault?, reads_urlSafe n hn, ih hrest]

theorem Strict.lastValues_char (h : ∀ n ∈ values, n < 64) (start offset : Nat) :
    lastValues start offset (values.map urlSafe.char) = .ok values := by
  induction values generalizing offset with
  | nil => rfl
  | cons n rest ih =>
      obtain ⟨hn, hrest⟩ := List.forall_mem_cons.mp h
      rw [List.map_cons, lastValues, if_neg (urlSafe_char n hn).1, reads_urlSafe n hn]
      simp [ih hrest, Except.map]

theorem Strict.strayFault?_char (h : ∀ n ∈ values, n < 64) :
    strayFault? (values.map urlSafe.char) = none := by
  rw [strayFault?, List.getLast?_map]
  cases hlast : values.getLast? with
  | none => rfl
  | some n => simp [reads_urlSafe n (h n (List.mem_of_getLast? hlast))]

theorem Strict.check_encodeBare (bytes : Bytes) : check (urlSafe.encodeBare bytes) = .ok () := by
  have hvalues : ∀ n ∈ sextets bytes, n < 64 := lt_of_mem_sextets
  have hlast : ∀ n ∈ lastGroup (sextets bytes), n < 64 :=
    fun n hmem => hvalues n (List.mem_of_mem_drop hmem)
  have hdrop : (urlSafe.encodeBare bytes).drop (lastStart (urlSafe.encodeBare bytes)) =
      (lastGroup (sextets bytes)).map urlSafe.char := by
    rw [encodeBare_eq, lastStart, List.length_map, ← List.map_drop, lastGroup]
  have hfront : (urlSafe.encodeBare bytes).take (lastStart (urlSafe.encodeBare bytes)) =
      ((sextets bytes).take (lastStart (urlSafe.encodeBare bytes))).map urlSafe.char := by
    rw [encodeBare_eq, List.map_take]
  rw [check, hdrop, hfront, encodeBare_eq, strayFault?_char hvalues,
    firstFault?_char fun n hmem => hvalues n (List.mem_of_mem_take hmem)]
  simp only [checkLast, lastValues_char hlast, bind, Except.bind, List.length_map]
  rcases lastGroup_sextets bytes with hnil | ⟨hlength, hbits⟩
  · simp [hnil, lastGroup, lastStart, hasSpareBits]
  · rw [if_neg (by omega), if_neg (by omega), if_neg (by simp [hbits])]

theorem decodeStrict_encodeBare (bytes : Bytes) :
    decodeStrict (urlSafe.encodeBare bytes) = .ok bytes := by
  simp only [decodeStrict, Strict.check_encodeBare, bind, Except.bind,
    reads_urlSafe.decodeBare?_encodeBare]

theorem lt_of_mem_encodeBare {bytes : Bytes} {b : UInt8} (h : b ∈ urlSafe.encodeBare bytes) :
    b < 128 := by
  rw [encodeBare_eq] at h
  obtain ⟨n, hn, rfl⟩ := List.mem_map.mp h
  exact (urlSafe_char n (lt_of_mem_sextets n hn)).2

end RegistryFront.Base64
