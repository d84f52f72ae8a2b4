import Mathlib.Data.Nat.Digits.Defs
import RegistryFront.Proofs.Environment.Value

/-!
# Lists and ports as they are written

A list is read as it was written, however its entries are spaced and whatever blank ones stand among
them.  A port is a decimal number in range; a number that is too large for a port is refused, with
however many digits it is written.
-/

namespace RegistryFront.Environment

def Blank (text : String) : Prop := ∀ c ∈ text.toList, Text.isBlank c = true

theorem trim_padded {before text after : String} (hbefore : Blank before) (hafter : Blank after)
    (htext : Text.Trimmed text.toList) : Text.trim (before ++ text ++ after) = text := by
  have hchars := Text.trimChars_eq_iff.mpr
    ⟨htext, before.toList, after.toList, rfl, hbefore, hafter⟩
  rw [← String.toList_inj, Text.toList_trim, String.toList_append, String.toList_append, hchars]

theorem exists_padded (raw : String) :
    ∃ before after, raw = before ++ Text.trim raw ++ after ∧ Blank before ∧ Blank after := by
  obtain ⟨-, before, after, hsplit, hbefore, hafter⟩ :=
    Text.trimChars_eq_iff.mp (Eq.refl (Text.trimChars raw.toList))
  refine ⟨String.ofList before, String.ofList after, ?_, by simpa [Blank], by simpa [Blank]⟩
  rw [← String.toList_inj]
  simpa using hsplit

theorem trim_eq_empty_iff {raw : String} : Text.trim raw = "" ↔ Blank raw := by
  constructor
  · intro h
    obtain ⟨before, after, hsplit, hbefore, hafter⟩ := exists_padded raw
    rw [hsplit, h]
    simpa [Blank, or_imp, forall_and] using And.intro hbefore hafter
  · intro h
    have hnone : Blank "" := by simp [Blank]
    have hpadded : Text.trim (raw ++ "" ++ "") = "" :=
      trim_padded h hnone (by simp [Text.Trimmed])
    simpa using hpadded

theorem trimmed?_eq_none_iff {raw : String} : trimmed? (some raw) = none ↔ Blank raw := by
  simp [trimmed?, Option.filter_some, trim_eq_empty_iff]

/-! ## Lists -/

/-- These pieces, with commas between them, make a list of these entries: there is one piece for each
entry, with white space around it or none, and others are blank. -/
inductive Listed : List String → List String → Prop where
  | nil : Listed [] []
  | blank {piece : String} {pieces entries : List String} (hblank : Blank piece)
      (hrest : Listed pieces entries) : Listed (piece :: pieces) entries
  | entry {before entry after : String} {pieces entries : List String} (hentry : IsEntry entry)
      (hbefore : Blank before) (hafter : Blank after) (hrest : Listed pieces entries) :
      Listed ((before ++ entry ++ after) :: pieces) (entry :: entries)

theorem Blank.not_comma {text : String} (h : Blank text) : ',' ∉ text.toList :=
  fun hcomma => absurd (h ',' hcomma) (by decide)

theorem splitList_of_blank {piece : String} (h : Blank piece) : splitList piece = [] := by
  rw [splitList_of_not_mem h.not_comma, trimmed?_eq_none_iff.mpr h]
  rfl

theorem splitList_of_entry {before entry after : String} (hentry : IsEntry entry)
    (hbefore : Blank before) (hafter : Blank after) :
    splitList (before ++ entry ++ after) = [entry] := by
  have hcomma : ',' ∉ (before ++ entry ++ after).toList := by
    simp [hbefore.not_comma, hentry.not_comma, hafter.not_comma]
  have htrimmed : trimmed? (some (before ++ entry ++ after)) = some entry :=
    trimmed?_eq_some_iff.mpr
      ⟨hentry.ne_empty, _, rfl, trim_padded hbefore hafter hentry.trimmed⟩
  rw [splitList_of_not_mem hcomma, htrimmed]
  rfl

theorem joinWith_cons_cons (separator piece next : String) (others : List String) :
    Text.joinWith separator (piece :: next :: others) =
      piece ++ separator ++ Text.joinWith separator (next :: others) := rfl

theorem splitList_joinWith (pieces : List String) :
    splitList (Text.joinWith "," pieces) = pieces.flatMap splitList := by
  induction pieces with
  | nil => rfl
  | cons piece pieces ih =>
      cases pieces with
      | nil => simp [Text.joinWith]
      | cons next others =>
          rw [joinWith_cons_cons, splitList_append_comma, ih]
          rfl

theorem Listed.flatMap_splitList {pieces entries : List String} (h : Listed pieces entries) :
    pieces.flatMap splitList = entries := by
  induction h with
  | nil => rfl
  | blank hblank _ ih => simp [splitList_of_blank hblank, ih]
  | entry hentry hbefore hafter _ ih =>
      simp [List.flatMap_cons, splitList_of_entry hentry hbefore hafter, ih]

theorem listed_flatMap_splitList {pieces : List String}
    (h : ∀ piece ∈ pieces, ',' ∉ piece.toList) : Listed pieces (pieces.flatMap splitList) := by
  induction pieces with
  | nil => exact .nil
  | cons piece pieces ih =>
      obtain ⟨hpiece, hpieces⟩ := List.forall_mem_cons.mp h
      by_cases hblank : Blank piece
      · simpa [splitList_of_blank hblank] using .blank hblank (ih hpieces)
      · obtain ⟨before, after, hsplit, hbefore, hafter⟩ := exists_padded piece
        have hentry : IsEntry (Text.trim piece) := by
          refine ⟨⟨mt trim_eq_empty_iff.mp hblank, Text.trimmed_trim piece⟩, fun hcomma => ?_⟩
          rw [Text.toList_trim] at hcomma
          exact hpiece (Text.mem_of_mem_trimChars hcomma)
        have hread := splitList_of_entry hentry hbefore hafter
        rw [← hsplit] at hread
        have hlisted := Listed.entry hentry hbefore hafter (ih hpieces)
        rw [← hsplit] at hlisted
        simpa [hread] using hlisted

theorem toList_joinWith_pieces (text : List Char) :
    (Text.joinWith "," ((Text.pieces ',' text).map String.ofList)).toList = text := by
  induction text with
  | nil => rfl
  | cons c rest ih =>
      obtain ⟨first, others, hrest⟩ := List.exists_cons_of_ne_nil (Text.pieces_ne_nil ',' rest)
      rw [hrest] at ih
      by_cases hc : c = ','
      · simpa [Text.pieces, hc, hrest, joinWith_cons_cons] using ih
      · rw [Text.pieces, if_neg hc, hrest]
        cases others with
        | nil => simpa [Text.joinWith] using ih
        | cons next others => simpa [joinWith_cons_cons] using ih

theorem splitList_eq_iff {raw : String} {entries : List String} :
    splitList raw = entries ↔ ∃ pieces, Listed pieces entries ∧ Text.joinWith "," pieces = raw := by
  constructor
  · rintro rfl
    have hraw := String.toList_inj.mp (toList_joinWith_pieces raw.toList)
    refine ⟨_, ?_, hraw⟩
    rw [← hraw, splitList_joinWith, hraw]
    refine listed_flatMap_splitList fun piece hpiece => ?_
    obtain ⟨chars, hchars, rfl⟩ := List.mem_map.mp hpiece
    rw [String.toList_ofList]
    exact Text.not_mem_of_mem_pieces hchars
  · rintro ⟨pieces, hlisted, rfl⟩
    rw [splitList_joinWith, hlisted.flatMap_splitList]

/-- Entries are never empty, never have a comma or white space at an end, and a text is read as a list
of them exactly when it is one way of writing that list: the entries in their order with commas
between them, white space around them and blank pieces among them. -/
theorem splitList_reads :
    (∀ raw, ∀ entry ∈ splitList raw, IsEntry entry) ∧
    (∀ raw entries, splitList raw = entries ↔
      ∃ pieces, Listed pieces entries ∧ Text.joinWith "," pieces = raw) ∧
    ∀ before after, splitList (before ++ "," ++ after) = splitList before ++ splitList after :=
  ⟨fun _ _ => isEntry_of_mem_splitList, fun _ _ => splitList_eq_iff, splitList_append_comma⟩

theorem splitList_reads_spaced :
    "a b" ∈ splitList " a b ,\u3000, c,a b" ∧ IsEntry "a b" ∧
      splitList " a b ,\u3000, c,a b" = ["a b", "c", "a b"] := by
  obtain ⟨hentries, hreads, -⟩ := splitList_reads
  have hmem : "a b" ∈ splitList " a b ,\u3000, c,a b" := by decide
  have hfirst := hentries _ _ hmem
  have hsecond := hentries " a b ,\u3000, c,a b" "c" (by decide)
  have hspace : Blank " " := by simp [Blank, Text.isBlank]
  have hnone : Blank "" := by simp [Blank, Text.isBlank]
  have hwide : Blank "\u3000" := by simp [Blank, Text.isBlank]
  refine ⟨hmem, hfirst, (hreads _ _).mpr ⟨[" a b ", "\u3000", " c", "a b"], ?_, rfl⟩⟩
  exact .entry hfirst hspace hspace (.blank hwide (.entry hsecond hspace hnone
    (.entry hfirst hnone hnone .nil)))

/-! ## Ports -/

def decimal (digits : List Char) : Nat :=
  Nat.ofDigits 10 (digits.reverse.map fun c => c.toNat - '0'.toNat)

theorem valueFrom_eq (value : Nat) (digits : List Char) :
    valueFrom value digits = 10 ^ digits.length * value + decimal digits := by
  induction digits generalizing value with
  | nil => simp [valueFrom, decimal]
  | cons c rest ih =>
      have hstep : valueFrom value (c :: rest) =
          valueFrom (10 * value + (c.toNat - '0'.toNat)) rest := rfl
      have hdecimal : decimal (c :: rest) =
          decimal rest + 10 ^ rest.length * (c.toNat - '0'.toNat) := by
        simp [decimal, Nat.ofDigits_append]
      rw [hstep, ih, hdecimal, List.length_cons, pow_succ]
      ring

/-- The text is a plus sign or none and then decimal digits, one at least, that write the number. -/
def Spells (text : String) (number : Nat) : Prop :=
  ∃ sign digits : List Char, text.toList = sign ++ digits ∧ (sign = [] ∨ sign = ['+']) ∧
    digits ≠ [] ∧ (∀ c ∈ digits, c.isDigit = true) ∧ decimal digits = number

theorem spells_iff {text : String} {number : Nat} :
    Spells text number ↔ ∃ digits, Writes text.toList number digits := by
  have hvalue : ∀ digits, valueFrom 0 digits = decimal digits := by simp [valueFrom_eq]
  constructor
  · rintro ⟨sign, digits, htext, hsign, hne, hdigits, hnumber⟩
    refine ⟨digits, ?_, hne, hdigits, (hvalue digits).trans hnumber⟩
    rcases hsign with rfl | rfl
    · exact .inl htext
    · exact .inr htext
  · rintro ⟨digits, hsign, hne, hdigits, hnumber⟩
    have hdecimal := (hvalue digits).symm.trans hnumber
    rcases hsign with htext | htext
    · exact ⟨[], digits, htext, .inl rfl, hne, hdigits, hdecimal⟩
    · exact ⟨['+'], digits, htext, .inr rfl, hne, hdigits, hdecimal⟩

theorem writesPort_iff_spells {text : String} {port : Nat} :
    WritesPort text port ↔ Spells text port ∧ 1 ≤ port ∧ port ≤ 65535 := by
  rw [WritesPort, spells_iff]

theorem trimmed?_some_iff {raw text : String} :
    trimmed? (some raw) = some text ↔ ¬ Blank raw ∧ text = Text.trim raw := by
  rw [trimmed?_eq_some_iff, ← trim_eq_empty_iff]
  constructor
  · rintro ⟨hne, _, ⟨⟩, rfl⟩
    exact ⟨hne, rfl⟩
  · rintro ⟨hne, rfl⟩
    exact ⟨hne, raw, rfl, rfl⟩

theorem Spells.not_blank {raw : String} {number : Nat} (h : Spells (Text.trim raw) number) :
    ¬ Blank raw := by
  intro hblank
  obtain ⟨sign, digits, htext, -, hne, -⟩ := h
  rw [trim_eq_empty_iff.mpr hblank] at htext
  exact hne (List.append_eq_nil_iff.mp htext.symm).2

theorem ported_some_iff {raw : String} {port : Nat} :
    Ported (some raw) (some port) ↔ Spells (Text.trim raw) port ∧ 1 ≤ port ∧ port ≤ 65535 := by
  rw [← writesPort_iff_spells]
  constructor
  · rintro (_ | ⟨htext, hport⟩)
    obtain ⟨-, rfl⟩ := trimmed?_some_iff.mp htext
    exact hport
  · intro hport
    have hspells := (writesPort_iff_spells.mp hport).1
    exact .written (trimmed?_some_iff.mpr ⟨hspells.not_blank, rfl⟩) hport

/-- A value without the white space around it is a port if it is a decimal number in range; a blank one
is none, and everything else is refused. -/
theorem parsePort_accepts (var raw : String) :
    (∃ before after, raw = before ++ Text.trim raw ++ after ∧ Blank before ∧ Blank after ∧
      Text.Trimmed (Text.trim raw).toList) ∧
    (parsePort var (some raw) = .ok none ↔ Blank raw) ∧
    (∀ port, parsePort var (some raw) = .ok (some port) ↔
      Spells (Text.trim raw) port ∧ 1 ≤ port ∧ port ≤ 65535) ∧
    ∀ failure, parsePort var (some raw) = .error failure ↔
      ¬ Blank raw ∧ (¬ ∃ port, Spells (Text.trim raw) port ∧ 1 ≤ port ∧ port ≤ 65535) ∧
        failure = .invalidPort var (Text.trim raw) := by
  refine ⟨?_, ?_, fun port => parsePort_eq_ok_iff.trans ported_some_iff, fun failure => ?_⟩
  · obtain ⟨before, after, hsplit, hbefore, hafter⟩ := exists_padded raw
    exact ⟨before, after, hsplit, hbefore, hafter, Text.trimmed_trim raw⟩
  · rw [parsePort_eq_ok_iff, ← trimmed?_eq_none_iff]
    constructor
    · rintro (hblank | _)
      exact hblank
    · exact .unset
  · rw [parsePort_eq_error_iff, not_exists]
    simp only [← writesPort_iff_spells, trimmed?_some_iff]
    constructor
    · rintro ⟨text, ⟨hblank, rfl⟩, hnone, hfailure⟩
      exact ⟨hblank, hnone, hfailure⟩
    · rintro ⟨hblank, hnone, hfailure⟩
      exact ⟨_, ⟨hblank, rfl⟩, hnone, hfailure⟩

example : parsePort "PORT" (some " +00443 ") = .ok (some 443) ∧
    parsePort "PORT" (some "65979") = .error (.invalidPort "PORT" "65979") := by decide

end RegistryFront.Environment
