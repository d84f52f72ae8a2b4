import Mathlib.Data.List.TakeWhile
import RegistryFront.Text.Blank

/-!
# What trimming leaves

White space goes from both ends of a text and from nowhere else, and nothing but white space goes.
-/

namespace RegistryFront.Text

def Trimmed (text : List Char) : Prop :=
  (∀ c ∈ text.head?, isBlank c = false) ∧ ∀ c ∈ text.getLast?, isBlank c = false

theorem dropWhile_eq_self_of_head? {p : Char → Bool} {text : List Char}
    (h : ∀ c ∈ text.head?, p c = false) : text.dropWhile p = text := by
  cases text with
  | nil => rfl
  | cons c rest => simp [h c rfl]

theorem dropWhileEnd_eq_self {p : Char → Bool} {text : List Char}
    (h : ∀ c ∈ text.getLast?, p c = false) : dropWhileEnd p text = text := by
  have hdrop : text.reverse.dropWhile p = text.reverse :=
    dropWhile_eq_self_of_head? (by simpa using h)
  rw [dropWhileEnd, hdrop, List.reverse_reverse]

theorem dropWhileEnd_append_of_forall {p : Char → Bool} {text after : List Char}
    (h : ∀ c ∈ after, p c = true) : dropWhileEnd p (text ++ after) = dropWhileEnd p text := by
  rw [dropWhileEnd, List.reverse_append,
    List.dropWhile_append_of_pos (by simpa using h), dropWhileEnd]

theorem exists_append_dropWhileEnd (p : Char → Bool) (text : List Char) :
    ∃ after, text = dropWhileEnd p text ++ after ∧ (∀ c ∈ after, p c = true) ∧
      ∀ c ∈ (dropWhileEnd p text).getLast?, p c = false := by
  refine ⟨(text.reverse.takeWhile p).reverse, ?_, ?_, ?_⟩
  · rw [dropWhileEnd, ← List.reverse_append, List.takeWhile_append_dropWhile, List.reverse_reverse]
  · intro c hc
    exact List.mem_takeWhile_imp (List.mem_reverse.mp hc)
  · intro c hc
    rw [dropWhileEnd, List.getLast?_reverse] at hc
    have hhead := List.head?_dropWhile_not p text.reverse
    rw [hc] at hhead
    exact hhead

/-- Trimming a text is finding the part of it that begins and ends with something else than white
space and has only white space around it. -/
theorem trimChars_eq_iff {text middle : List Char} :
    trimChars text = middle ↔
      Trimmed middle ∧ ∃ before after, text = before ++ middle ++ after ∧
        (∀ c ∈ before, isBlank c = true) ∧ ∀ c ∈ after, isBlank c = true := by
  constructor
  · rintro rfl
    obtain ⟨after, hsplit, hafter, hlast⟩ :=
      exists_append_dropWhileEnd isBlank (text.dropWhile isBlank)
    refine ⟨⟨?_, hlast⟩, text.takeWhile isBlank, after, ?_, ?_, hafter⟩
    · intro c hc
      have hhead := List.head?_dropWhile_not isBlank text
      -- what is left begins as it did before its end was trimmed
      have hsame : (text.dropWhile isBlank).head? = some c := by
        rw [hsplit, List.head?_append]
        exact Option.or_eq_some_iff.mpr (.inl hc)
      rw [hsame] at hhead
      exact hhead
    · rw [List.append_assoc, trimChars, ← hsplit, List.takeWhile_append_dropWhile]
    · exact fun c hc => List.mem_takeWhile_imp hc
  · rintro ⟨⟨hhead, hlast⟩, before, after, rfl, hbefore, hafter⟩
    rw [trimChars, List.append_assoc, List.dropWhile_append_of_pos hbefore]
    cases middle with
    | nil =>
        have hnil : after.dropWhile isBlank = [] := List.dropWhile_eq_nil_iff.mpr hafter
        rw [List.nil_append, hnil]
        rfl
    | cons c rest =>
        have hkeep : (c :: rest ++ after).dropWhile isBlank = c :: rest ++ after :=
          dropWhile_eq_self_of_head? (by simpa using hhead)
        rw [hkeep, dropWhileEnd_append_of_forall hafter, dropWhileEnd_eq_self hlast]

theorem trimmed_trimChars (text : List Char) : Trimmed (trimChars text) :=
  (trimChars_eq_iff.mp rfl).1

theorem trimmed_trim (text : String) : Trimmed (trim text).toList := by
  rw [toList_trim]
  exact trimmed_trimChars text.toList

theorem mem_of_mem_trimChars {text : List Char} {c : Char} (h : c ∈ trimChars text) :
    c ∈ text := by
  obtain ⟨-, before, after, hsplit, -, -⟩ := trimChars_eq_iff.mp (Eq.refl (trimChars text))
  rw [hsplit]
  simp [h]

end RegistryFront.Text
