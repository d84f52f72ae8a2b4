import RegistryFront.Text.Utf8

/-!
# Texts come back from their bytes

And bytes that are read as a text are just those that it is written as.  A character of ASCII is one
byte.
-/

namespace RegistryFront.Text.Utf8

/-! ## The bytes of a character -/

private theorem lengthFrom_one : ∀ n < 0x80, lengthFrom (UInt8.ofNat n) = 1 := by decide

private theorem lengthFrom_two : ∀ n < 32, 2 ≤ n → lengthFrom (UInt8.ofNat (0xC0 + n)) = 2 := by
  decide

private theorem lengthFrom_three : ∀ n < 16, lengthFrom (UInt8.ofNat (0xE0 + n)) = 3 := by decide

private theorem lengthFrom_four : ∀ n < 5, lengthFrom (UInt8.ofNat (0xF0 + n)) = 4 := by decide

private theorem isTail_of_lt : ∀ n < 64, isTail (UInt8.ofNat (0x80 + n)) = true := by decide

/-- Three bytes are not for characters that need fewer, nor for surrogates. -/
private theorem secondFits_three : ∀ first < 16, ∀ second < 64, (first = 0 → 32 ≤ second) →
    (first = 13 → second < 32) →
      secondFits (UInt8.ofNat (0xE0 + first)) (UInt8.ofNat (0x80 + second)) = true := by
  decide +kernel

private theorem secondFits_four : ∀ first < 5, ∀ second < 64, (first = 0 → 16 ≤ second) →
    (first = 4 → second < 16) →
      secondFits (UInt8.ofNat (0xF0 + first)) (UInt8.ofNat (0x80 + second)) = true := by
  decide +kernel

private theorem toNat_ofNat {n : Nat} (h : n < 256) : (UInt8.ofNat n).toNat = n := by
  rw [UInt8.toNat_ofNat']
  exact Nat.mod_eq_of_lt h

theorem decodeChar?_encodeChar (c : Char) (rest : List UInt8) :
    decodeChar? (encodeChar c ++ rest) = some (c, rest) := by
  have hvalid : c.toNat < 0xD800 ∨ 0xDFFF < c.toNat ∧ c.toNat < 0x110000 := c.valid
  have hback : ∀ n, n = c.toNat → Char.ofNat n = c := by
    rintro _ rfl
    exact Char.ofNat_toNat c
  unfold encodeChar
  generalize c.toNat = n at hvalid hback
  dsimp only
  split
  · next hone =>
      simp only [List.cons_append, List.nil_append, decodeChar?, lengthFrom_one n hone]
      rw [hback _ (toNat_ofNat (by omega))]
  · split
    · next hone htwo =>
        simp only [List.cons_append, List.nil_append, decodeChar?,
          lengthFrom_two (n / 0x40) (by omega) (by omega), isTail_of_lt (n % 0x40) (by omega),
          if_true]
        rw [hback]
        rw [toNat_ofNat (by omega), toNat_ofNat (by omega)]
        omega
    · split
      · next hone htwo hthree =>
          simp only [List.cons_append, List.nil_append, decodeChar?,
            lengthFrom_three (n / 0x1000) (by omega), isTail_of_lt (n % 0x40) (by omega),
            secondFits_three (n / 0x1000) (by omega) (n / 0x40 % 0x40) (by omega) (by omega)
              (by omega), Bool.and_self, if_true]
          rw [hback]
          rw [toNat_ofNat (by omega), toNat_ofNat (by omega), toNat_ofNat (by omega)]
          omega
      · next hone htwo hthree =>
          simp only [List.cons_append, List.nil_append, decodeChar?,
            lengthFrom_four (n / 0x40000) (by omega), isTail_of_lt (n % 0x40) (by omega),
            isTail_of_lt (n / 0x40 % 0x40) (by omega),
            secondFits_four (n / 0x40000) (by omega) (n / 0x1000 % 0x40) (by omega) (by omega)
              (by omega), Bool.and_self, if_true]
          rw [hback]
          rw [toNat_ofNat (by omega), toNat_ofNat (by omega), toNat_ofNat (by omega),
            toNat_ofNat (by omega)]
          omega

/-! ## Texts -/

private theorem decodeChars?_of_decodeChar? {bytes rest : List UInt8} {c : Char}
    (h : decodeChar? bytes = some (c, rest)) :
    decodeChars? bytes = (decodeChars? rest).map (c :: ·) := by
  rw [decodeChars?.eq_def]
  split
  · simp [decodeChar?] at h
  · split
    · next hnone => simp [h] at hnone
    · next hsome =>
        rw [h, Option.some.injEq, Prod.mk.injEq] at hsome
        rw [hsome.1, hsome.2]

theorem decodeChars?_encodeChars (text : List Char) :
    decodeChars? (encodeChars text) = some text := by
  induction text with
  | nil => rw [encodeChars, List.flatMap_nil, decodeChars?.eq_def]
  | cons c rest ih =>
      have hcons : encodeChars (c :: rest) = encodeChar c ++ encodeChars rest := rfl
      rw [hcons, decodeChars?_of_decodeChar? (decodeChar?_encodeChar c _), ih, Option.map_some]

@[simp] theorem decode?_encode (text : String) : decode? (encode text) = some text := by
  rw [decode?, encode, decodeChars?_encodeChars, Option.map_some, String.ofList_toList]

theorem encode_injective {text other : String} (h : encode text = encode other) : text = other := by
  have hdecode := congrArg decode? h
  simpa using hdecode

/-! ## What was read was written -/

private theorem lengthFrom_bounds (a : UInt8) :
    (lengthFrom a = 1 → a.toNat < 0x80) ∧
    (lengthFrom a = 2 → 0xC2 ≤ a.toNat ∧ a.toNat ≤ 0xDF) ∧
    (lengthFrom a = 3 → 0xE0 ≤ a.toNat ∧ a.toNat ≤ 0xEF) ∧
    (lengthFrom a = 4 → 0xF0 ≤ a.toNat ∧ a.toNat ≤ 0xF4) := by
  have hall : ∀ n < 256, let a := UInt8.ofNat n
      (lengthFrom a = 1 → n < 0x80) ∧ (lengthFrom a = 2 → 0xC2 ≤ n ∧ n ≤ 0xDF) ∧
      (lengthFrom a = 3 → 0xE0 ≤ n ∧ n ≤ 0xEF) ∧ (lengthFrom a = 4 → 0xF0 ≤ n ∧ n ≤ 0xF4) := by
    decide +kernel
  have ha := hall a.toNat a.toNat_lt
  rwa [UInt8.ofNat_toNat] at ha

private theorem isTail_bounds {b : UInt8} (h : isTail b = true) :
    0x80 ≤ b.toNat ∧ b.toNat ≤ 0xBF := by
  simpa [isTail, UInt8.le_iff_toNat_le] using h

private theorem secondFits_bounds {a b : UInt8} (h : secondFits a b = true) :
    0x80 ≤ b.toNat ∧ b.toNat ≤ 0xBF ∧ (a.toNat = 0xE0 → 0xA0 ≤ b.toNat) ∧
      (a.toNat = 0xED → b.toNat ≤ 0x9F) ∧ (a.toNat = 0xF0 → 0x90 ≤ b.toNat) ∧
      (a.toNat = 0xF4 → b.toNat ≤ 0x8F) := by
  rw [secondFits] at h
  repeat' split at h
  all_goals
    simp only [isTail, beq_iff_eq, Bool.and_eq_true, decide_eq_true_eq, UInt8.le_iff_toNat_le,
      ← UInt8.toNat_inj, UInt8.reduceToNat] at *
    omega

private theorem toNat_ofNat_of_valid {n : Nat} (h : n.isValidChar) : (Char.ofNat n).toNat = n := by
  rw [Char.ofNat, dif_pos h]
  rfl

private theorem ofNat_eq {n : Nat} {b : UInt8} (h : n = b.toNat) : UInt8.ofNat n = b := by
  rw [h, UInt8.ofNat_toNat]

theorem eq_encodeChar_append {bytes rest : List UInt8} {c : Char}
    (h : decodeChar? bytes = some (c, rest)) : bytes = encodeChar c ++ rest := by
  unfold decodeChar? at h
  split at h
  · cases h
  · next a others =>
      obtain ⟨hone, htwo, hthree, hfour⟩ := lengthFrom_bounds a
      split at h
      · next rest' hlength =>
          simp only [Option.some.injEq, Prod.mk.injEq] at h
          obtain ⟨rfl, rfl⟩ := h
          have ha := hone hlength
          have hvalid : (a.toNat).isValidChar := .inl (by omega)
          rw [encodeChar, toNat_ofNat_of_valid hvalid, if_pos ha, UInt8.ofNat_toNat]
          rfl
      · next b rest' hlength =>
          split at h
          · next hb =>
              simp only [Option.some.injEq, Prod.mk.injEq] at h
              obtain ⟨rfl, rfl⟩ := h
              have ha := htwo hlength
              have hb := isTail_bounds hb
              have hvalid : ((a.toNat - 0xC0) * 0x40 + (b.toNat - 0x80)).isValidChar :=
                .inl (by omega)
              rw [encodeChar, toNat_ofNat_of_valid hvalid, if_neg (by omega), if_pos (by omega),
                ofNat_eq (b := a) (by omega), ofNat_eq (b := b) (by omega)]
              rfl
          · cases h
      · next b c rest' hlength =>
          split at h
          · next hfits =>
              simp only [Option.some.injEq, Prod.mk.injEq] at h
              obtain ⟨rfl, rfl⟩ := h
              rw [Bool.and_eq_true] at hfits
              have ha := hthree hlength
              have hb := secondFits_bounds hfits.1
              have hc := isTail_bounds hfits.2
              have hvalid : ((a.toNat - 0xE0) * 0x1000 + (b.toNat - 0x80) * 0x40 +
                  (c.toNat - 0x80)).isValidChar := by
                rw [Nat.isValidChar]
                omega
              rw [encodeChar, toNat_ofNat_of_valid hvalid, if_neg (by omega), if_neg (by omega),
                if_pos (by omega), ofNat_eq (b := a) (by omega), ofNat_eq (b := b) (by omega),
                ofNat_eq (b := c) (by omega)]
              rfl
          · cases h
      · next b c d rest' hlength =>
          split at h
          · next hfits =>
              simp only [Option.some.injEq, Prod.mk.injEq] at h
              obtain ⟨rfl, rfl⟩ := h
              rw [Bool.and_eq_true, Bool.and_eq_true] at hfits
              have ha := hfour hlength
              have hb := secondFits_bounds hfits.1.1
              have hc := isTail_bounds hfits.1.2
              have hd := isTail_bounds hfits.2
              have hvalid : ((a.toNat - 0xF0) * 0x40000 + (b.toNat - 0x80) * 0x1000 +
                  (c.toNat - 0x80) * 0x40 + (d.toNat - 0x80)).isValidChar := by
                rw [Nat.isValidChar]
                omega
              rw [encodeChar, toNat_ofNat_of_valid hvalid, if_neg (by omega), if_neg (by omega),
                if_neg (by omega), ofNat_eq (b := a) (by omega), ofNat_eq (b := b) (by omega),
                ofNat_eq (b := c) (by omega), ofNat_eq (b := d) (by omega)]
              rfl
          · cases h
      · cases h

theorem encodeChars_of_decodeChars? {bytes : List UInt8} {text : List Char}
    (h : decodeChars? bytes = some text) : encodeChars text = bytes := by
  induction bytes using decodeChars?.induct generalizing text with
  | case1 =>
      rw [decodeChars?.eq_def] at h
      cases h
      rfl
  | case2 first others hnone =>
      rw [decodeChars?.eq_def] at h
      dsimp only at h
      split at h
      · cases h
      · next hsome => rw [hnone] at hsome; cases hsome
  | case3 first others c rest hfirst ih =>
      rw [decodeChars?_of_decodeChar? hfirst, Option.map_eq_some_iff] at h
      obtain ⟨text, hrest, rfl⟩ := h
      rw [eq_encodeChar_append hfirst, ← ih hrest]
      rfl

theorem encode_of_decode? {bytes : List UInt8} {text : String} (h : decode? bytes = some text) :
    encode text = bytes := by
  obtain ⟨chars, hchars, rfl⟩ := Option.map_eq_some_iff.mp h
  rw [encode, String.toList_ofList, encodeChars_of_decodeChars? hchars]

/-! ## ASCII -/

@[simp] theorem encodeChars_append (front rest : List Char) :
    encodeChars (front ++ rest) = encodeChars front ++ encodeChars rest :=
  List.flatMap_append

theorem encodeChars_of_ascii {text : List Char} (h : ∀ c ∈ text, c.toNat < 128) :
    encodeChars text = text.map fun c => UInt8.ofNat c.toNat := by
  induction text with
  | nil => rfl
  | cons c rest ih =>
      obtain ⟨hc, hrest⟩ := List.forall_mem_cons.mp h
      have hchar : encodeChar c = [UInt8.ofNat c.toNat] := if_pos hc
      rw [List.map_cons, ← ih hrest, encodeChars, List.flatMap_cons, hchar]
      rfl

theorem toNat_ofNat_byte (b : UInt8) : (Char.ofNat b.toNat).toNat = b.toNat :=
  toNat_ofNat_of_valid (.inl (Nat.lt_trans b.toNat_lt (by decide)))

theorem encodeChars_map_ofNat {bytes : List UInt8} (h : ∀ b ∈ bytes, b < 128) :
    encodeChars (bytes.map fun b => Char.ofNat b.toNat) = bytes := by
  rw [encodeChars_of_ascii, List.map_map]
  · refine (List.map_congr_left fun b _ => ?_).trans (List.map_id bytes)
    rw [Function.comp_apply, toNat_ofNat_byte, UInt8.ofNat_toNat, id]
  · intro c hc
    obtain ⟨b, hb, rfl⟩ := List.mem_map.mp hc
    rw [toNat_ofNat_byte]
    exact UInt8.lt_iff_toNat_lt.mp (h b hb)

end RegistryFront.Text.Utf8
