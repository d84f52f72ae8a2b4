import Mathlib.Algebra.Group.Nat.Defs
import RegistryFront.Proofs.Time.Calendar
import RegistryFront.Time.Rfc3339

/-!
# Instants come back from their texts

Every piece of the text of an instant is read back as what it was written from, whatever follows it,
and so every instant is read back from its text: any year of the calendar, any fraction of a second
and any leap second.
-/

namespace RegistryFront.Time.Rfc3339

/-! ## Digits -/

def Ends (text : List Char) : Prop := ∀ c ∈ text.head?, isDigit c = false

theorem isDigit_of_isDigit {c : Char} (h : c.isDigit = true) : isDigit c = true := by
  simpa [isDigit, Char.isDigit, Char.le_def] using h

theorem isDigit_of_mem_padded {width n : Nat} {c : Char} (h : c ∈ padded width n) :
    isDigit c = true := by
  rw [padded, List.mem_append] at h
  rcases h with hzero | hdigit
  · rw [List.eq_of_mem_replicate hzero]
    decide
  · exact isDigit_of_isDigit (Nat.isDigit_of_mem_toDigits (by decide) (by decide) hdigit)

theorem padded_ne_nil (width n : Nat) : padded width n ≠ [] := by
  simp [padded, Nat.toDigits_ne_nil]

theorem length_padded {width n : Nat} (hpos : 0 < width) (hlt : n < 10 ^ width) :
    (padded width n).length = width := by
  have hle := (Nat.length_toDigits_le_iff (by decide) hpos).mpr hlt
  simp only [padded, List.length_append, List.length_replicate]
  omega

theorem ofDigitChars_padded (width n : Nat) : Nat.ofDigitChars 10 (padded width n) 0 = n := by
  simp [padded, Nat.ofDigitChars_append]

theorem le_ofDigitChars (digits : List Char) (value : Nat) :
    value ≤ Nat.ofDigitChars 10 digits value := by
  rw [Nat.ofDigitChars_eq_ofDigitChars_zero]
  have := Nat.le_mul_of_pos_left value (Nat.pow_pos (n := digits.length) (show 0 < 10 by decide))
  omega

theorem readDigits_eq (digits : List Char) (value : Nat)
    (hle : Nat.ofDigitChars 10 digits value ≤ maxNumber) :
    readDigits value digits = .ok (Nat.ofDigitChars 10 digits value) := by
  induction digits generalizing value with
  | nil => simp [readDigits]
  | cons c rest ih =>
      rw [Nat.ofDigitChars_cons] at hle ⊢
      have hnext := le_ofDigitChars rest (10 * value + (c.toNat - '0'.toNat))
      simp only [readDigits, digitValue]
      exact (if_pos (Nat.le_trans hnext hle)).trans (ih _ hle)

theorem takeWhile_isDigit {digits rest : List Char} (hdigits : ∀ c ∈ digits, isDigit c = true)
    (hends : Ends rest) : (digits ++ rest).takeWhile isDigit = digits := by
  rw [List.takeWhile_append_of_pos hdigits]
  cases rest with
  | nil => simp
  | cons c rest => simp [hends c rfl]

theorem dropWhile_isDigit {rest : List Char} (hends : Ends rest) :
    rest.dropWhile isDigit = rest := by
  cases rest with
  | nil => rfl
  | cons c rest => simp [hends c rfl]

/-! ## Numbers -/

theorem Ends.take {text : List Char} (hends : Ends text) (count : Nat) : Ends (text.take count) := by
  cases count with
  | zero => simp [Ends]
  | succ count =>
      cases text with
      | nil => exact hends
      | cons c rest => exact hends

theorem readNumber_padded {width n : Nat} {window : Option Nat} {rest : List Char}
    (hmax : n ≤ maxNumber) (hfits : ∀ w ∈ window, (padded width n).length ≤ w)
    (hstop : Ends rest ∨ window = some (padded width n).length) :
    readNumber window (padded width n ++ rest) = .ok (n, rest) := by
  have hdigits : ((window.map fun w => (padded width n ++ rest).take w).getD
      (padded width n ++ rest)).takeWhile isDigit = padded width n := by
    cases window with
    | none =>
        exact takeWhile_isDigit (fun _ => isDigit_of_mem_padded) (hstop.resolve_right (by simp))
    | some w =>
        rw [Option.map_some, Option.getD_some, List.take_append,
          List.take_of_length_le (hfits w rfl)]
        refine takeWhile_isDigit (fun _ => isDigit_of_mem_padded) ?_
        rcases hstop with hends | hfull
        · exact hends.take _
        · simp [Option.some.inj hfull, Ends]
  have hread := readDigits_eq (padded width n) 0 (by rwa [ofDigitChars_padded])
  rw [ofDigitChars_padded] at hread
  simp only [readNumber, hdigits, hread]
  rw [if_neg (by simp [padded_ne_nil]), if_neg (padded_ne_nil width n)]
  simp [bind, Except.bind]

theorem readNumber_filled {width n : Nat} (rest : List Char) (hmax : n ≤ maxNumber)
    (hpos : 0 < width) (hlt : n < 10 ^ width) :
    readNumber (some width) (padded width n ++ rest) = .ok (n, rest) := by
  have hlength := length_padded hpos hlt
  exact readNumber_padded hmax (by simp [hlength]) (.inr (by rw [hlength]))

theorem isBlank_of_isDigit {c : Char} (h : isDigit c = true) : Text.isBlank c = false := by
  simp only [isDigit, Char.le_def, UInt32.le_iff_toNat_le, Bool.and_eq_true, decide_eq_true_eq]
    at h
  have hlow : 48 ≤ c.toNat := h.1
  have hhigh : c.toNat ≤ 57 := h.2
  simp only [Text.isBlank, Bool.or_eq_false_iff, Bool.and_eq_false_iff, decide_eq_false_iff_not,
    beq_eq_false_iff_ne]
  omega

theorem trimStart_cons {c : Char} (hblank : Text.isBlank c = false) (rest : List Char) :
    trimStart (c :: rest) = c :: rest := by
  simp [trimStart, hblank]

theorem exists_padded (width n : Nat) :
    ∃ c rest, padded width n = c :: rest ∧ isDigit c = true := by
  cases h : padded width n with
  | nil => exact absurd h (padded_ne_nil width n)
  | cons c rest => exact ⟨c, rest, rfl, isDigit_of_mem_padded (by rw [h]; exact List.mem_cons_self)⟩

theorem trimStart_padded (width n : Nat) (rest : List Char) :
    trimStart (padded width n ++ rest) = padded width n ++ rest := by
  obtain ⟨c, digits, hpadded, hdigit⟩ := exists_padded width n
  rw [hpadded]
  exact trimStart_cons (isBlank_of_isDigit hdigit) _

theorem readField_padded {low high n : Nat} (rest : List Char) (hlow : low ≤ n) (hhigh : n ≤ high)
    (hlt : n < 100) : readField low high (padded 2 n ++ rest) = .ok (n, rest) := by
  rw [readField, trimStart_padded,
    readNumber_filled rest (by unfold maxNumber; omega) (by decide) hlt]
  simp [bind, Except.bind, hlow, hhigh]

theorem readMark_cons {mark : Char} (hblank : Text.isBlank mark = false) (rest : List Char) :
    readMark mark (mark :: rest) = .ok rest := by
  simp [readMark, trimStart_cons hblank]

/-! ## Years, fractions and the zone -/

theorem readYear_writeYear {year : Int} (hmin : Calendar.minYear ≤ year)
    (hmax : year ≤ Calendar.maxYear) {rest : List Char} (hends : Ends rest) :
    readYear (writeYear year ++ rest) = .ok (year, rest) := by
  unfold Calendar.minYear at hmin
  unfold Calendar.maxYear at hmax
  have hrange : -2147483648 ≤ year ∧ year ≤ 2147483647 := by omega
  have hlong : year.natAbs ≤ maxNumber := by unfold maxNumber; omega
  unfold writeYear
  split
  · next hplain =>
      have hcast : (year.toNat : Int) = year := Int.toNat_of_nonneg hplain.1
      obtain ⟨c, digits, hpadded, hdigit⟩ := exists_padded 4 year.toNat
      have hread : readNumber (some 4) (padded 4 year.toNat ++ rest) = .ok (year.toNat, rest) :=
        readNumber_filled rest (by unfold maxNumber; omega) (by decide) (by omega)
      -- a digit comes first, so no sign is taken off
      have hminus : c ≠ '-' := by rintro rfl; cases hdigit
      have hplus : c ≠ '+' := by rintro rfl; cases hdigit
      rw [readYear, trimStart_padded]
      rw [hpadded] at hread ⊢
      simp only [List.cons_append] at hread ⊢
      split
      · next heq => exact absurd (List.cons.inj heq).1 hminus
      · next heq => exact absurd (List.cons.inj heq).1 hplus
      · simp [hread, Except.map, bind, Except.bind, hcast, hrange]
  · next hsigned =>
      have hread : readNumber none (padded 4 year.natAbs ++ rest) = .ok (year.natAbs, rest) :=
        readNumber_padded hlong (by simp) (.inl hends)
      by_cases hneg : year < 0
      · have habs : -(year.natAbs : Int) = year := by omega
        rw [if_pos hneg, readYear, List.cons_append, trimStart_cons (by decide)]
        simp only [hread, Except.map, bind, Except.bind, habs, hrange, and_self, if_true]
      · have habs : (year.natAbs : Int) = year := by omega
        rw [if_neg hneg, readYear, List.cons_append, trimStart_cons (by decide)]
        simp only [hread, Except.map, bind, Except.bind, habs, hrange, and_self, if_true]

/-- A fraction of `width` digits counts units of `10 ^ (9 - width)` nanoseconds. -/
theorem readFraction_padded {width n : Nat} (hpos : 0 < width) (hle : width ≤ 9)
    (hlt : n < 10 ^ width) {rest : List Char} (hends : Ends rest) :
    readFraction ('.' :: (padded width n ++ rest)) = .ok (n * 10 ^ (9 - width), rest) := by
  have hlength := length_padded hpos hlt
  have hmax : n ≤ maxNumber := by
    have := Nat.pow_le_pow_right (show 0 < 10 by decide) hle
    unfold maxNumber
    omega
  rw [readFraction, readNumber_padded hmax (by simpa [hlength] using hle) (.inl hends)]
  simp only [bind, Except.bind, List.length_append, hlength, Nat.add_sub_cancel_right,
    dropWhile_isDigit hends]
  rfl

theorem readFraction_writeFraction {nano : Nat} (hlt : nano < billion) {rest : List Char}
    (hends : Ends rest) (hmark : rest.head? ≠ some '.') :
    readFraction (writeFraction nano ++ rest) = .ok (nano, rest) := by
  unfold billion at hlt
  unfold writeFraction
  split
  · next hzero =>
      subst hzero
      cases rest with
      | nil => rfl
      | cons c rest =>
          rw [List.nil_append, readFraction]
          rintro text heq
          exact hmark (by rw [heq]; rfl)
  · split
    · next hmillis =>
        rw [List.cons_append, readFraction_padded (by decide) (by decide) (by omega) hends]
        simp only [Except.ok.injEq, Prod.mk.injEq, and_true]
        omega
    · split
      · next hmicros =>
          rw [List.cons_append, readFraction_padded (by decide) (by decide) (by omega) hends]
          simp only [Except.ok.injEq, Prod.mk.injEq, and_true]
          omega
      · rw [List.cons_append, readFraction_padded (by decide) (by decide) (by omega) hends]
        simp

theorem readZone_utc : readZone ['Z'] = .ok (0, []) := rfl

/-! ## Instants -/

/-- A leap second is written as the sixtieth of its minute. -/
theorem second_eq (t : Instant) :
    (if t.second % 60 + t.nano / billion = 60 then billion + t.nano % billion
      else t.nano % billion) = t.nano ∧
      min (t.second % 60 + t.nano / billion) 59 = t.second % 60 ∧
      t.second % 60 + t.nano / billion ≤ 60 := by
  have hleap := t.leap
  have hnano := t.nano_lt
  unfold billion at *
  split <;> omega

theorem ofUnix?_unixSeconds (t : Instant) : Instant.ofUnix? t.unixSeconds t.nano = some t := by
  have hsecond := t.second_lt
  unfold secondsPerDay at hsecond
  have hday : t.unixSeconds / secondsPerDay = t.day := by
    unfold Instant.unixSeconds secondsPerDay
    omega
  have hrest : (t.unixSeconds % secondsPerDay).toNat = t.second := by
    unfold Instant.unixSeconds secondsPerDay
    omega
  rw [Instant.ofUnix?, hday, hrest, Instant.make?,
    dif_pos ⟨⟨t.day_ge, t.day_le⟩, t.second_lt, t.nano_lt, t.leap⟩]

theorem read_write (t : Instant) : read (write t) = .ok t := by
  obtain ⟨hmin, hmax⟩ := Calendar.year_dateOf t.day_ge t.day_le
  have hdate := Calendar.isDate_dateOf t.day_ge t.day_le
  have hnumber := Calendar.dayNumber_dateOf t.day
  obtain ⟨⟨hmonth, hmonth'⟩, hday, hday'⟩ := Calendar.bounds_of_isDate hdate
  obtain ⟨hnano, hsecond, hsixty⟩ := second_eq t
  have hlt := t.second_lt
  unfold secondsPerDay at hlt
  have hends (rest : List Char) : Ends ('-' :: rest) := by simp [Ends]; decide
  have hyearRead := fun rest => readYear_writeYear hmin hmax (hends rest)
  have hmonthRead := fun rest => readField_padded rest hmonth hmonth' (by omega)
  have hdayRead := fun rest => readField_padded rest hday hday' (by omega)
  have hhour : t.second / 3600 ≤ 23 := by omega
  have hminute : t.second / 60 % 60 ≤ 59 := by omega
  have hhourRead := fun rest => readField_padded rest (Nat.zero_le _) hhour (by omega)
  have hminuteRead := fun rest => readField_padded rest (Nat.zero_le _) hminute (by omega)
  have hsecondRead := fun rest => readField_padded rest (Nat.zero_le _) hsixty (by omega)
  have hfractionRead : readFraction (writeFraction (t.nano % billion) ++ ['Z']) =
      .ok (t.nano % billion, ['Z']) :=
    readFraction_writeFraction (Nat.mod_lt _ (by decide)) (by simp [Ends]; decide) (by simp)
  have hzone : trimStart ['Z'] = ['Z'] := trimStart_cons (by decide) []
  have hend : trimStart [] = [] := rfl
  have hdash : Text.isBlank '-' = false := by decide
  have hcolon : Text.isBlank ':' = false := by decide
  simp only [read, write, String.toList_ofList, readChars, writeChars, List.append_assoc,
    List.cons_append, bind, Except.bind, hyearRead, readMark_cons hdash, hmonthRead, hdayRead,
    hhourRead, readMark_cons hcolon, hminuteRead, hsecondRead, hfractionRead, hzone, readZone_utc,
    hend, hdate, hnumber, hnano, hsecond]
  have hseconds : t.day * (secondsPerDay : Int) +
      ((t.second / 3600 * 3600 + t.second / 60 % 60 * 60 + t.second % 60 : Nat) : Int) - 0 =
        t.unixSeconds := by
    unfold Instant.unixSeconds
    omega
  -- the fields are in their ranges, and a zone of zero moves nothing
  rw [if_pos (.inr (.inl trivial)), if_neg (by decide), if_neg (by decide), if_neg (by decide),
    hseconds, ofUnix?_unixSeconds]

end RegistryFront.Time.Rfc3339
