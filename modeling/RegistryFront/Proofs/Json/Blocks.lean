import Mathlib.Data.List.DropRight
import RegistryFront.Json.Reader
import RegistryFront.Proofs.Json.Strings

/-!
# Lists and objects come back from their JSON texts

The entries of a list or an object stand on lines of their own.  When each of them is read back,
whatever follows it, the whole is.
-/

namespace RegistryFront.Json.Step

/-- The step reads `value` from `text`, whatever follows it. -/
def Takes (step : Step α) (text : List Char) (value : α) : Prop :=
  ∀ rest, step.run (text ++ rest) = .ok (value, rest)

theorem Takes.map {step : Step α} {text : List Char} {value : α} (h : step.Takes text value)
    (f : α → β) : (f <$> step).Takes text (f value) := by
  intro rest
  rw [map_eq_pure_bind, run_bind_of_ok (h rest)]
  rfl

def SkipsBlank (step : Step α) : Prop := ∀ text, step.run text = step.run (skipBlank text)

theorem skipsBlank_peek (next : Option Char → Step α) : (peek >>= next).SkipsBlank := by
  intro text
  have hagain : skipBlank (skipBlank text) = skipBlank text := List.dropWhile_idempotent _ _
  rw [run_bind_of_ok (run_peek text), run_bind_of_ok (run_peek _), hagain]

theorem skipsBlank_stringAs (expected : String) (convert : String → Except Cause α) :
    (stringAs expected convert).SkipsBlank :=
  skipsBlank_peek _

theorem skipsBlank_optional (value : Step α) : (optional value).SkipsBlank := skipsBlank_peek _

theorem skipsBlank_list (element : Step α) : (list element).SkipsBlank := skipsBlank_peek _

/-! ## Strings and null -/

theorem takes_stringAs {expected : String} {convert : String → Except Cause α} {text : String}
    {value : α} (h : convert text = .ok value) :
    (stringAs expected convert).Takes (stringChars text) value := by
  intro rest
  rw [stringChars_append, stringAs, run_bind_of_ok (run_peek_cons (by decide) _)]
  refine (run_bind_of_ok (run_advance _)).trans ((run_bind_of_ok (run_stringTail _ _)).trans ?_)
  rw [h]
  rfl

theorem takes_string (text : String) : string.Takes (stringChars text) text := takes_stringAs rfl

theorem takes_optional_null (value : Step α) : (optional value).Takes ['n', 'u', 'l', 'l'] none := by
  intro rest
  rfl

theorem takes_optional_string (text : String) :
    (optional string).Takes (stringChars text) (some text) := by
  intro rest
  have hstring := (takes_string text).map some rest
  rw [stringChars_append] at hstring ⊢
  rw [optional, run_bind_of_ok (run_peek_cons (by decide) _)]
  exact hstring

/-! ## Entries on lines of their own -/

theorem skipBlank_line (level : Nat) {c : Char} (hblank : isBlank c = false) (rest : List Char) :
    skipBlank ('\n' :: (indent level ++ c :: rest)) = c :: rest := by
  have hnewline : isBlank '\n' = true := by decide
  have hspace : isBlank ' ' = true := by decide
  rw [skipBlank, List.dropWhile_cons_of_pos hnewline, indent,
    List.dropWhile_append_of_pos (fun c hc => by rwa [List.eq_of_mem_replicate hc])]
  exact skipBlank_cons hblank rest

theorem run_peek_line (level : Nat) {c : Char} (hblank : isBlank c = false) (rest : List Char) :
    peek.run ('\n' :: (indent level ++ c :: rest)) = .ok (some c, c :: rest) := by
  rw [run_peek, skipBlank_line level hblank]
  rfl

def following (level : Nat) (closer : Char) (entries : List (List Char)) (rest : List Char) :
    List Char :=
  entries.flatMap (fun entry => ',' :: '\n' :: indent (level + 1) ++ entry) ++
    '\n' :: (indent level ++ closer :: rest)

theorem block_cons_append (level : Nat) (opener closer : Char) (first : List Char)
    (more : List (List Char)) (rest : List Char) :
    block level opener closer (first :: more) ++ rest =
      opener :: '\n' :: (indent (level + 1) ++ (first ++ following level closer more rest)) := by
  simp [block, following]

theorem following_cons (level : Nat) (closer : Char) (entry : List Char)
    (more : List (List Char)) (rest : List Char) :
    following level closer (entry :: more) rest =
      ',' :: '\n' :: (indent (level + 1) ++ (entry ++ following level closer more rest)) := by
  simp [following]

theorem length_lt_following (level : Nat) (closer : Char) (entries : List (List Char))
    (rest : List Char) : entries.length < (following level closer entries rest).length := by
  have := length_le_length_flatMap
    (f := fun entry => ',' :: '\n' :: indent (level + 1) ++ entry) (by simp) entries
  rw [following, List.length_append, List.length_cons]
  omega

/-! ## Lists of strings -/

theorem hasElement_first {c : Char} (hblank : isBlank c = false) (hc : c ≠ ']') (level : Nat)
    (rest : List Char) :
    (hasElement true).run ('\n' :: (indent level ++ c :: rest)) = .ok (true, c :: rest) := by
  refine (run_bind_of_ok (run_peek_line level hblank rest)).trans ?_
  split
  · next heq => exact absurd (Option.some.inj heq) hc
  · rfl
  · next heq => cases heq

theorem hasElement_comma {c : Char} (hblank : isBlank c = false) (hc : c ≠ ']') (level : Nat)
    (rest : List Char) :
    (hasElement false).run (',' :: '\n' :: (indent level ++ c :: rest)) = .ok (true, c :: rest) := by
  refine (run_bind_of_ok (run_peek_cons (by decide) _)).trans ?_
  refine (run_bind_of_ok (run_advance _)).trans ?_
  refine (run_bind_of_ok (run_peek_line level hblank rest)).trans ?_
  split
  · next heq => exact absurd (Option.some.inj heq) hc
  · rfl
  · next heq => cases heq

theorem hasElement_end (level : Nat) (first : Bool) (rest : List Char) :
    (hasElement first).run ('\n' :: (indent level ++ ']' :: rest)) = .ok (false, ']' :: rest) :=
  run_bind_of_ok (run_peek_line level (by decide) rest)

theorem run_elements_following {fuel level : Nat} {texts : List String} (rest : List Char)
    (hfuel : texts.length < fuel) :
    (elements fuel false string).run (following level ']' (texts.map stringChars) rest) =
      .ok (texts, ']' :: rest) := by
  induction texts generalizing fuel with
  | nil =>
      obtain ⟨fuel, rfl⟩ : ∃ left, fuel = left + 1 := ⟨fuel - 1, by omega⟩
      exact run_bind_of_ok (hasElement_end level false rest)
  | cons text texts ih =>
      obtain ⟨fuel, rfl⟩ : ∃ left, fuel = left + 1 := ⟨fuel - 1, by omega⟩
      have hstring := takes_string text (following level ']' (texts.map stringChars) rest)
      rw [stringChars_append] at hstring
      rw [List.map_cons, following_cons, stringChars_append, elements]
      refine (run_bind_of_ok (hasElement_comma (by decide) (by decide) _ _)).trans ?_
      refine (run_bind_of_ok hstring).trans ?_
      exact run_bind_of_ok (ih (by simpa using hfuel))

theorem run_listEnd (rest : List Char) : listEnd.run (']' :: rest) = .ok ((), rest) := rfl

theorem run_settling_of_ok {close : List Char → List Char} {step : Step α}
    {text rest : List Char} {value : α} (h : step.run text = .ok (value, rest)) :
    (settling close step).run text = .ok (value, rest) := by
  have h' : step text = .ok (value, rest) := h
  show settling close step text = _
  rw [settling, h']

theorem takes_list_string (level : Nat) (texts : List String) :
    (list string).Takes (block level '[' ']' (texts.map stringChars)) texts := by
  intro rest
  cases texts with
  | nil => rfl
  | cons text texts =>
      have hstring := takes_string text (following level ']' (texts.map stringChars) rest)
      rw [stringChars_append] at hstring
      rw [List.map_cons, block_cons_append, stringChars_append, list,
        run_bind_of_ok (run_peek_cons (by decide) _)]
      refine run_settling_of_ok ?_
      refine (run_bind_of_ok (run_advance _)).trans ?_
      refine (run_bind_of_ok (run_rest _)).trans ?_
      have helements : ∀ fuel, texts.length < fuel →
          (elements (fuel + 1) true string).run ('\n' :: (indent (level + 1) ++
            '"' :: (text.toList.flatMap escapeChar ++
              '"' :: following level ']' (texts.map stringChars) rest))) =
            .ok (text :: texts, ']' :: rest) := by
        intro fuel hfuel
        rw [elements]
        refine (run_bind_of_ok (hasElement_first (by decide) (by decide) _ _)).trans ?_
        refine (run_bind_of_ok hstring).trans ?_
        exact run_bind_of_ok (run_elements_following rest hfuel)
      refine (run_bind_of_ok (helements _ ?_)).trans ?_
      · have := length_lt_following level ']' (texts.map stringChars) rest
        rw [List.length_map] at this
        simp only [List.tail_cons, List.length_cons, List.length_append]
        omega
      · exact run_bind_of_ok (run_listEnd rest)

/-! ## Objects -/

theorem key_first (name : String) (level : Nat) (rest : List Char) :
    (key true).run ('\n' :: (indent level ++ (stringChars name ++ rest))) =
      .ok (some name, rest) := by
  rw [stringChars_append, key, run_bind_of_ok (run_peek_line level (by decide) _)]
  refine (run_bind_of_ok (run_advance _)).trans ?_
  rw [map_eq_pure_bind]
  exact run_bind_of_ok (run_stringTail name rest)

theorem key_comma (name : String) (level : Nat) (rest : List Char) :
    (key false).run (',' :: '\n' :: (indent level ++ (stringChars name ++ rest))) =
      .ok (some name, rest) := by
  rw [stringChars_append, key, run_bind_of_ok (run_peek_cons (by decide) _)]
  refine (run_bind_of_ok (run_advance _)).trans ?_
  refine (run_bind_of_ok (run_peek_line level (by decide) _)).trans ?_
  refine (run_bind_of_ok (run_advance _)).trans ?_
  rw [map_eq_pure_bind]
  exact run_bind_of_ok (run_stringTail name rest)

theorem key_end (level : Nat) (first : Bool) (rest : List Char) :
    (key first).run ('\n' :: (indent level ++ '\x7d' :: rest)) = .ok (none, '\x7d' :: rest) :=
  run_bind_of_ok (run_peek_line level (by decide) rest)

abbrev Entry := String × List Char

def Entry.chars (entry : Entry) : List Char := stringChars entry.1 ++ entry.2

inductive Gathers (field : String → β → Step β) : β → List Entry → β → Prop
  | nil {found : β} : Gathers field found [] found
  | cons {found next last : β} {name : String} {tail : List Char} {more : List Entry}
      (htail : (field name found).Takes tail next) (hmore : Gathers field next more last) :
      Gathers field found ((name, tail) :: more) last

theorem run_fields_following {fuel level : Nat} {field : String → β → Step β} {found last : β}
    {entries : List Entry} (rest : List Char) (h : Gathers field found entries last)
    (hfuel : entries.length < fuel) :
    (fields fuel false found field).run
      (following level '\x7d' (entries.map Entry.chars) rest) = .ok (last, '\x7d' :: rest) := by
  induction h generalizing fuel with
  | nil =>
      obtain ⟨fuel, rfl⟩ : ∃ left, fuel = left + 1 := ⟨fuel - 1, by omega⟩
      exact run_bind_of_ok (key_end level false rest)
  | cons htail hmore ih =>
      obtain ⟨fuel, rfl⟩ : ∃ left, fuel = left + 1 := ⟨fuel - 1, by omega⟩
      rw [List.map_cons, following_cons, Entry.chars, List.append_assoc, fields,
        run_bind_of_ok (key_comma _ _ _)]
      refine (run_bind_of_ok (htail _)).trans ?_
      exact ih (by simpa using hfuel)

theorem run_objectEnd (rest : List Char) : objectEnd.run ('\x7d' :: rest) = .ok ((), rest) := rfl

theorem takes_record {shape : Record β α} {level : Nat} {first : Entry} {more : List Entry}
    {last : β} {value : α} (h : Gathers shape.field shape.start (first :: more) last)
    (hfinish : shape.finish last = .ok value) :
    (record shape).Takes (block level '\x7b' '\x7d' ((first :: more).map Entry.chars)) value := by
  intro rest
  cases h with
  | cons htail hmore =>
      rename_i next name tail
      rw [List.map_cons, block_cons_append, Entry.chars, List.append_assoc, record,
        run_bind_of_ok (run_peek_cons (by decide) _)]
      refine run_settling_of_ok ?_
      refine (run_bind_of_ok (run_advance _)).trans ?_
      refine (run_bind_of_ok (run_rest _)).trans ?_
      have hfields : ∀ fuel, more.length < fuel →
          (fields (fuel + 1) true shape.start shape.field).run ('\n' :: (indent (level + 1) ++
            (stringChars name ++ (tail ++
              following level '\x7d' (more.map Entry.chars) rest)))) =
            .ok (last, '\x7d' :: rest) := by
        intro fuel hfuel
        rw [fields, run_bind_of_ok (key_first _ _ _)]
        refine (run_bind_of_ok (htail _)).trans ?_
        exact run_fields_following rest hmore hfuel
      refine (run_bind_of_ok (hfields _ ?_)).trans ?_
      · have := length_lt_following level '\x7d' (more.map Entry.chars) rest
        rw [List.length_map] at this
        simp only [List.tail_cons, List.length_cons, List.length_append]
        omega
      · rw [hfinish]
        exact run_bind_of_ok (run_objectEnd rest)

theorem takes_once {name : String} {value : Step β} {text : List Char} {found : β}
    (hskips : value.SkipsBlank) (h : value.Takes text found) :
    (once name none value).Takes (':' :: ' ' :: text) (some found) := by
  intro rest
  have hcolon : colon.run (':' :: ' ' :: (text ++ rest)) = .ok ((), ' ' :: (text ++ rest)) := rfl
  have hvalue : value.run (' ' :: (text ++ rest)) = .ok (found, rest) := by
    rw [hskips, skipBlank, List.dropWhile_cons_of_pos (by decide), ← skipBlank, ← hskips, h]
  refine (run_bind_of_ok hcolon).trans ?_
  rw [map_eq_pure_bind]
  exact run_bind_of_ok hvalue

end RegistryFront.Json.Step

namespace RegistryFront.Json

theorem parse_of_takes {step : Step α} {text : String} {value : α}
    (h : step.Takes text.toList value) : parse step text = .ok value := by
  have hwhole := h []
  rw [List.append_nil] at hwhole
  rw [parse, Step.run_bind_of_ok hwhole]
  rfl

end RegistryFront.Json
