import RegistryFront.Files.Disk

/-!
# The names of a path

What the names are of a path that was put together, by `join` or by hand.
-/

namespace RegistryFront

theorem Text.pieces_append_separator (separator : Char) (before after : List Char) :
    pieces separator (before ++ separator :: after) =
      pieces separator before ++ pieces separator after := by
  induction before with
  | nil => simp [pieces]
  | cons c rest ih =>
      by_cases hc : c = separator
      · simp [pieces, hc, ih]
      · simp only [List.cons_append, pieces, if_neg hc, ih]
        cases hpieces : pieces separator rest with
        | nil => exact absurd hpieces (pieces_ne_nil separator rest)
        | cons => rfl

theorem Text.pieces_of_not_mem {separator : Char} {text : List Char} (h : separator ∉ text) :
    pieces separator text = [text] := by
  induction text with
  | nil => rfl
  | cons c rest ih =>
      rw [List.mem_cons, not_or] at h
      rw [pieces, if_neg (Ne.symm h.1), ih h.2]

theorem Text.not_mem_of_mem_pieces {separator : Char} {text piece : List Char}
    (h : piece ∈ pieces separator text) : separator ∉ piece := by
  induction text generalizing piece with
  | nil => simp_all [pieces]
  | cons c rest ih =>
      by_cases hc : c = separator
      · simp only [pieces, if_pos hc, List.mem_cons] at h
        rcases h with rfl | h
        · simp
        · exact ih h
      · simp only [pieces, if_neg hc] at h
        cases hpieces : pieces separator rest with
        | nil => exact absurd hpieces (pieces_ne_nil separator rest)
        | cons first others =>
            rw [hpieces] at h ih
            rcases List.mem_cons.mp h with rfl | h
            · have hfirst := ih List.mem_cons_self
              simp [hfirst, Ne.symm hc]
            · exact ih (List.mem_cons_of_mem _ h)

namespace Files.Path

structure IsPart (name : String) : Prop where
  ne_empty : name ≠ ""
  not_slash : '/' ∉ name.toList

theorem IsPart.isAbsolute_append {name : String} (h : IsPart name) (rest : String) :
    isAbsolute (name ++ rest) = false := by
  obtain ⟨hne, hslash⟩ := h
  obtain ⟨c, others, hname⟩ := List.exists_cons_of_ne_nil (l := name.toList) (by simpa using hne)
  have hc : c ≠ '/' := by
    rintro rfl
    simp [hname] at hslash
  simp [isAbsolute, hname, hc]

theorem IsPart.isAbsolute_eq_false {name : String} (h : IsPart name) : isAbsolute name = false := by
  simpa using h.isAbsolute_append ""

theorem isPart_of_mem_parts {path name : String} (h : name ∈ parts path) : IsPart name := by
  simp only [parts, List.mem_map, List.mem_filter, decide_eq_true_eq] at h
  obtain ⟨piece, ⟨hpiece, hne⟩, rfl⟩ := h
  refine ⟨by simpa using hne, ?_⟩
  rw [String.toList_ofList]
  exact Text.not_mem_of_mem_pieces hpiece

@[simp] theorem parts_empty : parts "" = [] := by decide

theorem parts_of_isPart {name : String} (h : IsPart name) : parts name = [name] := by
  have hne : name.toList ≠ [] := by simpa using h.ne_empty
  simp [parts, Text.pieces_of_not_mem h.not_slash, hne]

theorem parts_append_slash (before after : String) :
    parts (before ++ "/" ++ after) = parts before ++ parts after := by
  have hlist : (before ++ "/" ++ after).toList = before.toList ++ '/' :: after.toList := by simp
  rw [parts, hlist, Text.pieces_append_separator, List.filter_append, List.map_append]
  rfl

theorem parts_intercalate {names : List String} (h : ∀ name ∈ names, IsPart name) :
    parts ("/".intercalate names) = names := by
  induction names with
  | nil => simp
  | cons name rest ih =>
      have hname := parts_of_isPart (h name List.mem_cons_self)
      have hrest := ih fun other hmem => h other (List.mem_cons_of_mem _ hmem)
      cases rest with
      | nil => simpa using hname
      | cons next others =>
          rw [String.intercalate_cons_cons, parts_append_slash, hname, hrest]
          rfl

/-! ## Joined paths -/

theorem exists_of_endsInSlash {path : String} (h : endsInSlash path = true) :
    ∃ front, path = front ++ "/" := by
  have hlast : path.toList.getLast? = some '/' := by simpa [endsInSlash] using h
  obtain ⟨front, hfront⟩ := List.getLast?_eq_some_iff.mp hlast
  exact ⟨String.ofList front, String.toList_inj.mp (by simp [hfront])⟩

theorem parts_join (path : String) {name : String} (h : isAbsolute name = false) :
    parts (join path name) = parts path ++ parts name := by
  rw [join, h, if_neg (by simp)]
  split
  · next hpath =>
      rw [Bool.or_eq_true, beq_iff_eq] at hpath
      rcases hpath with rfl | hpath
      · simp
      · obtain ⟨front, rfl⟩ := exists_of_endsInSlash hpath
        have hfront := parts_append_slash front ""
        rw [String.append_empty, parts_empty, List.append_nil] at hfront
        rw [parts_append_slash, hfront]
  · exact parts_append_slash path name

theorem isAbsolute_join (path : String) {name : String} (h : isAbsolute name = false) :
    isAbsolute (join path name) = isAbsolute path := by
  have happend : ∀ rest : String, path ≠ "" → isAbsolute (path ++ rest) = isAbsolute path := by
    intro rest hpath
    have hne : path.toList ≠ [] := by simpa using hpath
    simp [isAbsolute, List.head?_eq_some_head hne]
  rw [join, h, if_neg (by simp)]
  by_cases hpath : path = ""
  · subst hpath
    simpa [isAbsolute] using h
  · split
    · exact happend name hpath
    · rw [String.append_assoc]
      exact happend _ hpath

theorem endsInSlash_join (path : String) {name : String} (h : name ≠ "") :
    endsInSlash (join path name) = endsInSlash name := by
  have happend : ∀ front : String, endsInSlash (front ++ name) = endsInSlash name := by
    intro front
    have hne : name.toList ≠ [] := by simpa using h
    simp [endsInSlash, List.getLast?_eq_some_getLast hne]
  unfold join
  split
  · rfl
  · split
    · exact happend path
    · exact happend _

end Files.Path

end RegistryFront
