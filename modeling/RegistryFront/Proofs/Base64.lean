import RegistryFront.Base64

/-!
# Bytes come back from base64

What is written is read again, also when white space has been put into it.
-/

namespace RegistryFront.Base64

/-! ## Groups of six bits -/

def sextets : Bytes → List Nat
  | a :: b :: c :: rest =>
      a.toNat / 4 :: (a.toNat % 4 * 16 + b.toNat / 16) :: (b.toNat % 16 * 4 + c.toNat / 64) ::
        c.toNat % 64 :: sextets rest
  | [a, b] => [a.toNat / 4, a.toNat % 4 * 16 + b.toNat / 16, b.toNat % 16 * 4]
  | [a] => [a.toNat / 4, a.toNat % 4 * 16]
  | [] => []

theorem encodeBare_eq (alphabet : Alphabet) (bytes : Bytes) :
    alphabet.encodeBare bytes = (sextets bytes).map alphabet.char := by
  fun_induction sextets bytes with
  | case1 a b c rest ih => simp [Alphabet.encodeBare, ih]
  | case2 | case3 | case4 => rfl

theorem lt_of_mem_sextets {bytes : Bytes} : ∀ n ∈ sextets bytes, n < 64 := by
  fun_induction sextets bytes with
  | case1 a b c rest ih =>
      have := a.toNat_lt
      have := b.toNat_lt
      have := c.toNat_lt
      simp only [List.forall_mem_cons]
      exact ⟨by omega, by omega, by omega, by omega, ih⟩
  | case2 a b =>
      have := a.toNat_lt
      have := b.toNat_lt
      simp only [List.forall_mem_cons]
      exact ⟨by omega, by omega, by omega, nofun⟩
  | case3 a =>
      have := a.toNat_lt
      simp only [List.forall_mem_cons]
      exact ⟨by omega, by omega, nofun⟩
  | case4 => nofun

private theorem ofNat_of_eq {n : Nat} {b : UInt8} (h : n = b.toNat) : UInt8.ofNat n = b := by
  rw [h, UInt8.ofNat_toNat]

theorem joinValues_sextets (bytes : Bytes) : joinValues (sextets bytes) = some bytes := by
  fun_induction sextets bytes with
  | case1 a b c rest ih =>
      have := b.toNat_lt
      have := c.toNat_lt
      simp only [joinValues, ih, bind, Option.bind]
      rw [ofNat_of_eq (b := a) (by omega), ofNat_of_eq (b := b) (by omega),
        ofNat_of_eq (b := c) (by omega)]
  | case2 a b =>
      have := b.toNat_lt
      simp only [joinValues]
      rw [ofNat_of_eq (b := a) (by omega), ofNat_of_eq (b := b) (by omega)]
  | case3 a =>
      simp only [joinValues]
      rw [ofNat_of_eq (b := a) (by omega)]
  | case4 => rfl

theorem length_sextets (bytes : Bytes) :
    ((sextets bytes).length + (3 - bytes.length % 3) % 3) % 4 = 0 := by
  fun_induction sextets bytes with
  | case1 a b c rest ih =>
      simp only [List.length_cons]
      omega
  | case2 | case3 | case4 => simp

/-! ## The characters -/

def Alphabet.Reads (alphabet : Alphabet) : Prop :=
  ∀ n < 64, alphabet.value? (alphabet.char n) = some n

theorem reads_standard : standard.Reads := by
  unfold Alphabet.Reads
  decide

theorem reads_urlSafe : urlSafe.Reads := by
  unfold Alphabet.Reads
  decide

theorem char_solid : ∀ n < 64, standard.char n ≠ pad ∧ isSpace (standard.char n) = false ∧
    standard.char n ≠ 45 ∧ standard.char n < 128 := by
  decide

theorem Alphabet.Reads.mapM_char {alphabet : Alphabet} (hreads : alphabet.Reads)
    {values : List Nat} (h : ∀ n ∈ values, n < 64) :
    (values.map alphabet.char).mapM alphabet.value? = some values := by
  induction values with
  | nil => rfl
  | cons n rest ih =>
      obtain ⟨hn, hrest⟩ := List.forall_mem_cons.mp h
      simp [hreads n hn, ih hrest]

theorem Alphabet.Reads.decodeBare?_encodeBare {alphabet : Alphabet} (hreads : alphabet.Reads)
    (bytes : Bytes) : alphabet.decodeBare? (alphabet.encodeBare bytes) = some bytes := by
  simp [Alphabet.decodeBare?, encodeBare_eq, hreads.mapM_char lt_of_mem_sextets,
    joinValues_sextets]

theorem mem_encode {bytes : Bytes} {b : UInt8} (h : b ∈ encode bytes) :
    isSpace b = false ∧ b ≠ 45 ∧ b < 128 := by
  rw [encode, encodeBare_eq] at h
  rcases List.mem_append.mp h with h | h
  · obtain ⟨n, hn, rfl⟩ := List.mem_map.mp h
    exact (char_solid n (lt_of_mem_sextets n hn)).2
  · obtain rfl := List.eq_of_mem_replicate h
    decide

/-! ## Reading -/

theorem filter_encode (bytes : Bytes) :
    (encode bytes).filter (fun b => !isSpace b) = encode bytes :=
  List.filter_eq_self.mpr fun b hb => by simp [(mem_encode hb).1]

theorem dropWhile_pad {text : Bytes} (h : ∀ b ∈ text, b ≠ pad) (count : Nat) :
    (((text ++ List.replicate count pad).reverse).dropWhile (· == pad)).reverse = text := by
  rw [List.reverse_append, List.reverse_replicate, List.dropWhile_append_of_pos (by simp)]
  cases hreverse : text.reverse with
  | nil => simpa using hreverse.symm
  | cons b rest =>
      have hb : b ≠ pad := h b (List.mem_reverse.mp (by simp [hreverse]))
      rw [List.dropWhile_cons_of_neg (by simpa using hb), ← hreverse, List.reverse_reverse]

theorem decode?_of_filter {text bytes : Bytes}
    (h : text.filter (fun b => !isSpace b) = encode bytes) : decode? text = some bytes := by
  have hbare : ∀ b ∈ standard.encodeBare bytes, b ≠ pad := by
    rw [encodeBare_eq]
    rintro _ hb rfl
    obtain ⟨n, hn, hpad⟩ := List.mem_map.mp hb
    exact (char_solid n (lt_of_mem_sextets n hn)).1 hpad
  have hlength := length_sextets bytes
  simp only [decode?, h]
  rw [encode, dropWhile_pad hbare, if_pos, reads_standard.decodeBare?_encodeBare]
  rw [encodeBare_eq]
  simp only [List.length_append, List.length_map, List.length_replicate]
  omega

theorem decode?_encode (bytes : Bytes) : decode? (encode bytes) = some bytes :=
  decode?_of_filter (filter_encode bytes)

end RegistryFront.Base64
