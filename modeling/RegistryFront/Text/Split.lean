/-!
# Cutting a text at a separator

`pieces` cuts at every separator and loses nothing else: there is one piece more than there are
separators.  `splitLast?` cuts at the last separator only.
-/

namespace RegistryFront.Text

def pieces (separator : Char) : List Char → List (List Char)
  | [] => [[]]
  | c :: rest =>
      if c = separator then [] :: pieces separator rest
      else
        match pieces separator rest with
        | [] => [[c]]
        | piece :: others => (c :: piece) :: others

def splitLast? (separator : Char) : List Char → Option (List Char × List Char)
  | [] => none
  | c :: rest =>
      match splitLast? separator rest with
      | some (before, after) => some (c :: before, after)
      | none => if c = separator then some ([], rest) else none

def splitFirst? (separator : Char) : List Char → Option (List Char × List Char)
  | [] => none
  | c :: rest =>
      if c = separator then some ([], rest)
      else (splitFirst? separator rest).map fun (before, after) => (c :: before, after)

def joinWith (separator : String) : List String → String
  | [] => ""
  | [text] => text
  | text :: rest => text ++ separator ++ joinWith separator rest

theorem pieces_ne_nil (separator : Char) (text : List Char) : pieces separator text ≠ [] := by
  cases text with
  | nil => simp [pieces]
  | cons c rest =>
      simp only [pieces]
      split
      · simp
      · split <;> simp

theorem splitLast?_eq_none_iff {separator : Char} {text : List Char} :
    splitLast? separator text = none ↔ separator ∉ text := by
  induction text with
  | nil => simp [splitLast?]
  | cons c rest ih =>
      rw [splitLast?, List.mem_cons, not_or, ← ih]
      split
      · next hrest => simp [hrest]
      · next hrest => simp [hrest, eq_comm]

theorem splitLast?_eq_some_iff {separator : Char} {text before after : List Char} :
    splitLast? separator text = some (before, after) ↔
      text = before ++ separator :: after ∧ separator ∉ after := by
  constructor
  · intro h
    induction text generalizing before with
    | nil => cases h
    | cons c rest ih =>
        rw [splitLast?] at h
        split at h
        · next hrest =>
            cases h
            obtain ⟨hsplit, hafter⟩ := ih hrest
            exact ⟨by rw [hsplit, List.cons_append], hafter⟩
        · next hrest =>
            split at h
            · next hc =>
                cases h
                exact ⟨by rw [hc, List.nil_append], splitLast?_eq_none_iff.mp hrest⟩
            · cases h
  · rintro ⟨rfl, hafter⟩
    induction before with
    | nil => rw [List.nil_append, splitLast?, splitLast?_eq_none_iff.mpr hafter, if_pos rfl]
    | cons c before ih => rw [List.cons_append, splitLast?, ih]

end RegistryFront.Text
