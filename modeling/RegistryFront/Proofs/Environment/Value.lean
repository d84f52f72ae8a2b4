import RegistryFront.Environment.Value
import RegistryFront.Proofs.Files.Path
import RegistryFront.Proofs.Text.Trim

/-!
# What values stand for

Lists, texts, flags and ports, each by what is written in the value and not by how it is read.
-/

namespace RegistryFront.Environment

/-! ## Texts -/

theorem trimmed?_eq_some_iff {raw : Option String} {text : String} :
    trimmed? raw = some text ↔ text ≠ "" ∧ ∃ whole, raw = some whole ∧ Text.trim whole = text := by
  rw [trimmed?, Option.filter_eq_some_iff, Option.map_eq_some_iff]
  simp [and_comm]

structure IsValue (text : String) : Prop where
  ne_empty : text ≠ ""
  trimmed : Text.Trimmed text.toList

theorem isValue_of_trimmed? {raw : Option String} {text : String} (h : trimmed? raw = some text) :
    IsValue text := by
  obtain ⟨hne, whole, -, rfl⟩ := trimmed?_eq_some_iff.mp h
  exact ⟨hne, Text.trimmed_trim whole⟩

/-! ## Lists -/

theorem splitList_append_comma (before after : String) :
    splitList (before ++ "," ++ after) = splitList before ++ splitList after := by
  simp [splitList, Text.pieces_append_separator]

theorem splitList_of_not_mem {raw : String} (h : ',' ∉ raw.toList) :
    splitList raw = (trimmed? (some raw)).toList := by
  rw [splitList, Text.pieces_of_not_mem h, trimmed?, Option.map_some, Text.trim,
    Option.filter_some]
  by_cases hblank : Text.trimChars raw.toList = [] <;> simp [hblank]

structure IsEntry (entry : String) : Prop extends IsValue entry where
  not_comma : ',' ∉ entry.toList

theorem isEntry_of_mem_splitList {raw entry : String} (h : entry ∈ splitList raw) :
    IsEntry entry := by
  simp only [splitList, List.mem_map, List.mem_filter, decide_eq_true_eq] at h
  obtain ⟨chars, ⟨⟨piece, hpiece, rfl⟩, hne⟩, rfl⟩ := h
  refine ⟨⟨?_, ?_⟩, ?_⟩
  · simpa using hne
  · rw [String.toList_ofList]
    exact Text.trimmed_trimChars piece
  · rw [String.toList_ofList]
    exact fun hcomma => Text.not_mem_of_mem_pieces hpiece (Text.mem_of_mem_trimChars hcomma)

example : splitList " a.test , ,b.test,," = ["a.test", "b.test"] := by decide

/-! ## Flags -/

inductive Flagged (raw : Option String) (default : Bool) : Bool → Prop
  | unset (hblank : trimmed? raw = none) : Flagged raw default default
  | on {text : String} (htext : trimmed? raw = some text) (hspelling : text ∈ trueSpellings) :
      Flagged raw default true
  | off {text : String} (htext : trimmed? raw = some text) (hspelling : text ∈ falseSpellings) :
      Flagged raw default false

theorem not_mem_falseSpellings {text : String} (h : text ∈ trueSpellings) :
    text ∉ falseSpellings := by
  revert text
  decide

theorem parseFlag_eq_ok_iff {var : String} {raw : Option String} {default flag : Bool} :
    parseFlag var raw default = .ok flag ↔ Flagged raw default flag := by
  constructor
  · intro h
    rw [parseFlag] at h
    split at h
    · next hblank =>
        cases h
        exact .unset hblank
    · next text htext =>
        split_ifs at h with htrue hfalse
        · cases h
          exact .on htext htrue
        · cases h
          exact .off htext hfalse
  · rintro (hblank | ⟨htext, htrue⟩ | ⟨htext, hfalse⟩)
    · simp [parseFlag, hblank]
    · simp [parseFlag, htext, htrue]
    · next text =>
        have htrue : text ∉ trueSpellings := fun htrue => not_mem_falseSpellings htrue hfalse
        simp [parseFlag, htext, htrue, hfalse]

theorem parseFlag_eq_error_iff {var : String} {raw : Option String} {default : Bool}
    {failure : ConfigError} :
    parseFlag var raw default = .error failure ↔
      ∃ text, trimmed? raw = some text ∧ text ∉ trueSpellings ∧ text ∉ falseSpellings ∧
        failure = .invalidFlag var text := by
  rw [parseFlag]
  cases htext : trimmed? raw with
  | none => simp
  | some text =>
      by_cases htrue : text ∈ trueSpellings <;> by_cases hfalse : text ∈ falseSpellings <;>
        simp [htrue, hfalse, eq_comm]

/-! ## Numbers -/

def valueFrom (value : Nat) (digits : List Char) : Nat :=
  digits.foldl (fun value c => 10 * value + (c.toNat - '0'.toNat)) value

theorem le_valueFrom (value : Nat) (digits : List Char) : value ≤ valueFrom value digits := by
  induction digits generalizing value with
  | nil => exact Nat.le_refl value
  | cons c rest ih =>
      have hrest : 10 * value + (c.toNat - '0'.toNat) ≤ valueFrom value (c :: rest) := ih _
      omega

structure Writes (text : List Char) (number : Nat) (digits : List Char) : Prop where
  sign : text = digits ∨ text = '+' :: digits
  ne_nil : digits ≠ []
  isDigit : ∀ c ∈ digits, c.isDigit = true
  value : valueFrom 0 digits = number

theorem digitValue?_eq (c : Char) :
    digitValue? c = if c.isDigit = true then some (c.toNat - '0'.toNat) else none := by
  have hdigit : ('0' ≤ c ∧ c ≤ '9') ↔ c.isDigit = true := by
    rw [Char.isDigit, Bool.and_eq_true, decide_eq_true_iff, decide_eq_true_iff]
    rfl
  simp only [digitValue?, hdigit]
  rfl

/-- Giving up as soon as the limit is passed comes to the same as comparing at the end. -/
theorem readDigits?_eq_some_iff {limit value number : Nat} {digits : List Char}
    (hvalue : value ≤ limit) :
    readDigits? limit value digits = some number ↔
      (∀ c ∈ digits, c.isDigit = true) ∧ valueFrom value digits = number ∧ number ≤ limit := by
  induction digits generalizing value with
  | nil =>
      simp only [readDigits?, valueFrom, List.foldl_nil, Option.some.injEq]
      constructor
      · rintro rfl
        exact ⟨by simp, rfl, hvalue⟩
      · exact fun h => h.2.1
  | cons c rest ih =>
      rw [readDigits?, digitValue?_eq]
      have hstep : valueFrom value (c :: rest) =
          valueFrom (10 * value + (c.toNat - '0'.toNat)) rest := rfl
      by_cases hc : c.isDigit = true
      · by_cases hnext : 10 * value + (c.toNat - '0'.toNat) ≤ limit
        · simp only [hc, if_true, hnext, ih hnext, hstep, List.forall_mem_cons, true_and]
        · have hle := le_valueFrom (10 * value + (c.toNat - '0'.toNat)) rest
          simp only [hc, if_true, hnext, if_false, hstep, List.forall_mem_cons, true_and,
            reduceCtorEq, false_iff]
          rintro ⟨-, rfl, hlimit⟩
          omega
      · simp [hc]

theorem readDecimal?_eq_some_iff {limit number : Nat} {text : List Char} :
    readDecimal? limit text = some number ↔
      (∃ digits, Writes text number digits) ∧ number ≤ limit := by
  have hplus : '+'.isDigit = false := rfl
  have hread : ∀ digits, digits ≠ [] →
      (readDigits? limit 0 digits = some number ↔
        Writes digits number digits ∧ number ≤ limit) := by
    intro digits hne
    rw [readDigits?_eq_some_iff (Nat.zero_le limit)]
    constructor
    · rintro ⟨hdigits, hnumber, hlimit⟩
      exact ⟨⟨.inl rfl, hne, hdigits, hnumber⟩, hlimit⟩
    · rintro ⟨⟨-, -, hdigits, hnumber⟩, hlimit⟩
      exact ⟨hdigits, hnumber, hlimit⟩
  rw [readDecimal?.eq_def]
  split
  · constructor
    · rintro ⟨⟩
    · rintro ⟨⟨digits, hsign, hne, -, -⟩, -⟩
      simp_all
  · next digits =>
      constructor
      · intro h
        split_ifs at h with hnil
        obtain ⟨⟨-, hne, hdigits, hnumber⟩, hlimit⟩ := (hread digits hnil).mp h
        exact ⟨⟨digits, .inr rfl, hne, hdigits, hnumber⟩, hlimit⟩
      · rintro ⟨⟨others, hsign, hne, hdigits, hnumber⟩, hlimit⟩
        -- a plus sign is no digit, so it must be the sign
        have hothers : others = digits := by
          rcases hsign with rfl | hsign
          · simp [hplus] at hdigits
          · exact (List.cons.inj hsign).2.symm
        subst hothers
        rw [if_neg hne]
        exact (hread others hne).mpr ⟨⟨.inl rfl, hne, hdigits, hnumber⟩, hlimit⟩
  · next hnil hsigned =>
      rw [hread text hnil]
      constructor
      · rintro ⟨hwrites, hlimit⟩
        exact ⟨⟨text, hwrites⟩, hlimit⟩
      · rintro ⟨⟨digits, hsign, hne, hdigits, hnumber⟩, hlimit⟩
        rcases hsign with rfl | rfl
        · exact ⟨⟨.inl rfl, hne, hdigits, hnumber⟩, hlimit⟩
        · exact absurd rfl (hsigned digits)

/-! ## Ports -/

def WritesPort (text : String) (port : Nat) : Prop :=
  (∃ digits, Writes text.toList port digits) ∧ 1 ≤ port ∧ port ≤ 65535

inductive Ported (raw : Option String) : Option Nat → Prop
  | unset (hblank : trimmed? raw = none) : Ported raw none
  | written {text : String} {port : Nat} (htext : trimmed? raw = some text)
      (hport : WritesPort text port) : Ported raw (some port)

theorem writesPort_iff {text : String} {port : Nat} :
    WritesPort text port ↔ readDecimal? maxPort text.toList = some port ∧ port ≠ 0 := by
  rw [readDecimal?_eq_some_iff, WritesPort, maxPort, Nat.one_le_iff_ne_zero, and_assoc,
    and_comm (a := port ≠ 0)]

theorem parsePort_eq_ok_iff {var : String} {raw : Option String} {port : Option Nat} :
    parsePort var raw = .ok port ↔ Ported raw port := by
  rw [parsePort]
  constructor
  · intro h
    split at h
    · next hblank =>
        cases h
        exact .unset hblank
    · next text htext =>
        split at h
        · next number hread =>
            cases h
            exact .written htext (writesPort_iff.mpr ⟨hread, Nat.succ_ne_zero number⟩)
        · cases h
  · rintro (hblank | ⟨htext, hport⟩)
    · rw [hblank]
    · obtain ⟨hread, hpos⟩ := writesPort_iff.mp hport
      obtain ⟨number, rfl⟩ := Nat.exists_eq_succ_of_ne_zero hpos
      simp [htext, hread]

theorem parsePort_eq_error_iff {var : String} {raw : Option String} {failure : ConfigError} :
    parsePort var raw = .error failure ↔
      ∃ text, trimmed? raw = some text ∧ (∀ port, ¬ WritesPort text port) ∧
        failure = .invalidPort var text := by
  rw [parsePort]
  cases htext : trimmed? raw with
  | none => simp
  | some text =>
      simp only [Option.some.injEq, exists_eq_left', writesPort_iff]
      split
      · next number hread => simp [hread]
      · next hread =>
          have hnone : ∀ port, ¬ (readDecimal? maxPort text.toList = some port ∧ port ≠ 0) := by
            rintro port ⟨hport, hpos⟩
            obtain ⟨number, rfl⟩ := Nat.exists_eq_succ_of_ne_zero hpos
            exact hread number hport
          rw [Except.error.injEq, eq_comm]
          exact ⟨fun h => ⟨hnone, h⟩, fun h => h.2⟩

end RegistryFront.Environment
