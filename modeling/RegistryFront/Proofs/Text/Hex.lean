import RegistryFront.Text.Hex

/-!
# Bytes come back from their digits
-/

namespace RegistryFront.Text.Hex

theorem digitValue?_digit : ∀ n < 16, digitValue? (digit n) = some n := by decide

theorem decodeChars?_encodeChars (bytes : List UInt8) :
    decodeChars? (encodeChars bytes) = some bytes := by
  induction bytes with
  | nil => rfl
  | cons b rest ih =>
      have hlt := b.toNat_lt
      have hb : UInt8.ofNat (16 * (b.toNat / 16) + b.toNat % 16) = b := by
        rw [Nat.div_add_mod]
        exact UInt8.ofNat_toNat
      rw [encodeChars] at ih
      simp only [encodeChars, List.flatMap_cons, List.cons_append, List.nil_append, decodeChars?,
        digitValue?_digit (b.toNat / 16) (by omega), digitValue?_digit (b.toNat % 16) (by omega),
        ih, bind, Option.bind, hb]

@[simp] theorem decode?_encode (bytes : List UInt8) : decode? (encode bytes) = some bytes := by
  rw [decode?, encode, String.toList_ofList, decodeChars?_encodeChars]

theorem encode_injective {bytes others : List UInt8} (h : encode bytes = encode others) :
    bytes = others := by
  have hdecode := congrArg decode? h
  simpa using hdecode

theorem slash_not_mem_encode (bytes : List UInt8) : '/' ∉ (encode bytes).toList := by
  have hdigit : ∀ n < 16, digit n ≠ '/' := by decide
  intro hmem
  simp only [encode, String.toList_ofList, encodeChars, List.mem_flatMap] at hmem
  obtain ⟨b, -, hb⟩ := hmem
  have hlt := b.toNat_lt
  simp only [List.mem_cons, List.not_mem_nil, or_false] at hb
  rcases hb with hb | hb
  · exact hdigit _ (by omega) hb.symm
  · exact hdigit _ (by omega) hb.symm

end RegistryFront.Text.Hex
