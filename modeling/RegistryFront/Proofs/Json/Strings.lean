import Mathlib.Algebra.BigOperators.Group.List.Basic
import RegistryFront.Json.Strings
import RegistryFront.Json.Writer

/-!
# Strings come back from their JSON texts

Whatever characters a string has, reading from after the opening quote gives the string and stops
after the closing one.
-/

namespace RegistryFront.Json

namespace Step

/-! ## Steps in a row -/

theorem run_bind_of_ok {step : Step α} {next : α → Step β} {text rest : List Char} {value : α}
    (h : step.run text = .ok (value, rest)) : (step >>= next).run text = (next value).run rest := by
  rw [StateT.run_bind, h]
  rfl

@[simp] theorem run_peek (text : List Char) :
    peek.run text = .ok ((skipBlank text).head?, skipBlank text) := rfl

@[simp] theorem run_rest (text : List Char) : rest.run text = .ok (text, text) := rfl

@[simp] theorem run_advance (text : List Char) : advance.run text = .ok ((), text.tail) := rfl

theorem skipBlank_cons {c : Char} (hblank : isBlank c = false) (rest : List Char) :
    skipBlank (c :: rest) = c :: rest := by
  simp [skipBlank, hblank]

theorem run_peek_cons {c : Char} (hblank : isBlank c = false) (rest : List Char) :
    peek.run (c :: rest) = .ok (some c, c :: rest) := by
  rw [run_peek, skipBlank_cons hblank]
  rfl

/-! ## Escapes -/

theorem length_le_length_flatMap {f : α → List β} (hf : ∀ a, 1 ≤ (f a).length) (l : List α) :
    l.length ≤ (l.flatMap f).length := by
  have h := List.length_le_sum_of_one_le (l.map fun a => (f a).length) (by simpa using fun a _ => hf a)
  rwa [List.length_map, ← List.length_flatMap] at h

theorem length_le_bytesLeft (text : List Char) : text.length ≤ bytesLeft text := by
  refine length_le_length_flatMap (fun c => ?_) text
  unfold Text.Utf8.encodeChar
  dsimp only
  repeat' split
  all_goals simp

theorem hexValue?_digit : ∀ n < 16, hexValue? (Text.Hex.digit n) = some n := by decide

theorem codeEscape_digits {n : Nat} (hlt : n < 0x20) (rest : List Char) :
    codeEscape ('0' :: '0' :: Text.Hex.digit (n / 16) :: Text.Hex.digit (n % 16) :: rest) =
      .ok (Char.ofNat n, rest) := by
  have hzero : hexValue? '0' = some 0 := by decide
  have hleft := length_le_bytesLeft
    ('0' :: '0' :: Text.Hex.digit (n / 16) :: Text.Hex.digit (n % 16) :: rest)
  have hfour : hexFour ('0' :: '0' :: Text.Hex.digit (n / 16) :: Text.Hex.digit (n % 16) :: rest) =
      .ok (n, rest) := by
    rw [hexFour, if_neg (by simp only [List.length_cons] at hleft; omega)]
    simp only [hzero, hexValue?_digit (n / 16) (by omega), hexValue?_digit (n % 16) (by omega)]
    rw [show ((0 * 16 + 0) * 16 + n / 16) * 16 + n % 16 = n by omega]
  rw [codeEscape, hfour]
  simp only [bind, Except.bind]
  rw [if_neg (by omega), if_neg (by omega)]

theorem stringBody_escape {fuel : Nat} {text rest : List Char} {c : Char}
    (h : escape text = .ok (c, rest)) :
    stringBody (fuel + 1) ('\\' :: text) =
      (stringBody fuel rest).map fun found => (c :: found.1, found.2) := by
  rw [stringBody, h]
  simp only [bind, Except.bind]
  cases stringBody fuel rest <;> rfl

theorem stringBody_escapeChar (fuel : Nat) (c : Char) (rest : List Char) :
    stringBody (fuel + 1) (escapeChar c ++ rest) =
      (stringBody fuel rest).map fun found => (c :: found.1, found.2) := by
  unfold escapeChar
  split
  · next h => subst h; exact stringBody_escape rfl
  split
  · next h => subst h; exact stringBody_escape rfl
  split
  · next h => subst h; exact stringBody_escape rfl
  split
  · next h => subst h; exact stringBody_escape rfl
  split
  · next h => subst h; exact stringBody_escape rfl
  split
  · next h =>
      obtain rfl : c = '\x08' := Char.toNat_inj.mp h
      exact stringBody_escape rfl
  split
  · next h =>
      obtain rfl : c = '\x0c' := Char.toNat_inj.mp h
      exact stringBody_escape rfl
  split
  · next h =>
      have hcode := codeEscape_digits h rest
      rw [Char.ofNat_toNat] at hcode
      exact stringBody_escape hcode
  · next hquote hbackslash _ _ _ _ _ hplain =>
      rw [List.cons_append, List.nil_append, stringBody]
      · rw [if_neg hplain]
        simp only [bind, Except.bind]
        cases stringBody fuel rest <;> rfl
      · exact hquote
      · exact hbackslash

theorem one_le_length_escapeChar (c : Char) : 1 ≤ (escapeChar c).length := by
  unfold escapeChar
  repeat' split
  all_goals simp

theorem stringBody_flatMap_escapeChar {fuel : Nat} {chars : List Char} (rest : List Char)
    (hfuel : chars.length ≤ fuel) :
    stringBody fuel (chars.flatMap escapeChar ++ '"' :: rest) = .ok (chars, rest) := by
  induction chars generalizing fuel with
  | nil => cases fuel <;> rfl
  | cons c more ih =>
      obtain ⟨fuel, rfl⟩ : ∃ left, fuel = left + 1 := ⟨fuel - 1, by simp at hfuel; omega⟩
      rw [List.flatMap_cons, List.append_assoc, stringBody_escapeChar,
        ih (by simpa using hfuel)]
      rfl

theorem run_stringTail (text : String) (rest : List Char) :
    stringTail.run (text.toList.flatMap escapeChar ++ '"' :: rest) = .ok (text, rest) := by
  have hfuel : text.toList.length ≤ (text.toList.flatMap escapeChar ++ '"' :: rest).length := by
    have := length_le_length_flatMap one_le_length_escapeChar text.toList
    rw [List.length_append]
    omega
  have hbody := stringBody_flatMap_escapeChar rest hfuel
  rw [stringTail, run_bind_of_ok (run_rest _), hbody]
  exact congrArg (fun text : String => Except.ok (text, rest)) String.ofList_toList

theorem stringChars_append (text : String) (rest : List Char) :
    stringChars text ++ rest = '"' :: (text.toList.flatMap escapeChar ++ '"' :: rest) := by
  simp [stringChars]

end Step

end RegistryFront.Json
