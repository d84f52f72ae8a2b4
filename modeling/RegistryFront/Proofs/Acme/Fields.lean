import Mathlib.Data.List.Induction
import Mathlib.Data.List.Nodup
import RegistryFront.Acme.Config

/-!
# From variables to fields

Which variables set which field, and what is gathered when no field is set twice: under each field
the value of its only variable, whatever else stands among the variables and wherever it stands.
-/

namespace RegistryFront.Acme

open Environment

/-! ## Names of variables -/

theorem stripAll_of_not_isPrefix {start text : List Char} (h : ¬ start <+: text) :
    stripAll start text = text := by
  rw [stripAll, dif_neg]
  rintro ⟨-, hprefix⟩
  exact h (List.isPrefixOf_iff_prefix.mp hprefix)

theorem stripAll_replicate {start rest : List Char} (count : Nat) (h : ¬ start <+: rest) :
    stripAll start ((List.replicate count start).flatten ++ rest) = rest := by
  induction count with
  | zero => exact stripAll_of_not_isPrefix h
  | succ count ih =>
      have hne : start ≠ [] := by
        rintro rfl
        exact h (List.nil_prefix)
      have hfront : (List.replicate (count + 1) start).flatten ++ rest =
          start ++ ((List.replicate count start).flatten ++ rest) := by
        rw [List.replicate_succ, List.flatten_cons, List.append_assoc]
      rw [hfront, stripAll,
        dif_pos ⟨hne, List.isPrefixOf_iff_prefix.mpr (List.prefix_append start _)⟩,
        List.drop_left, ih]

theorem exists_eq_replicate_append_stripAll (start text : List Char) :
    ∃ count, text = (List.replicate count start).flatten ++ stripAll start text := by
  induction text using stripAll.induct start with
  | case1 text h ih =>
      obtain ⟨count, hcount⟩ := ih
      obtain ⟨rest, rfl⟩ := List.isPrefixOf_iff_prefix.mp h.2
      rw [List.drop_left] at hcount
      refine ⟨count + 1, ?_⟩
      rw [stripAll, dif_pos h, List.drop_left, List.replicate_succ, List.flatten_cons,
        List.append_assoc, ← hcount]
  | case2 text h =>
      exact ⟨0, by rw [stripAll, dif_neg h]; rfl⟩

/-- The variable of this name sets the field: the start of our names stands in front, once or
repeatedly, and what follows is the name of the field in whatever case. -/
def Field.SetBy (field : Field) (name : String) : Prop :=
  ∃ count rest, name.toList = (List.replicate (count + 1) variableStart.toList).flatten ++ rest ∧
    rest.map Char.toLower = field.name.toList

theorem Field.SetBy.isPrefix {field : Field} {name : String} (h : field.SetBy name) :
    variableStart.toList <+: name.toList := by
  obtain ⟨count, rest, hname, -⟩ := h
  rw [hname, List.replicate_succ, List.flatten_cons, List.append_assoc]
  exact List.prefix_append _ _

theorem Field.find?_all_eq_some_iff {rest : List Char} {field : Field} :
    (Field.all.find? fun field => field.name.toList == rest) = some field ↔
      rest = field.name.toList := by
  constructor
  · intro h
    have hname := List.find?_some h
    exact (beq_iff_eq.mp hname).symm
  · rintro rfl
    cases field <;> decide

theorem Field.not_isPrefix {field : Field} {rest : List Char}
    (h : rest.map Char.toLower = field.name.toList) : ¬ variableStart.toList <+: rest := by
  rintro ⟨others, rfl⟩
  have hhead : field.name.toList.head? = some 'r' := by
    rw [← h, List.map_append, List.head?_append]
    rfl
  revert hhead
  cases field <;> decide

theorem Field.ofVariable?_eq_some_iff {name : String} {field : Field} :
    Field.ofVariable? name = some field ↔ field.SetBy name := by
  rw [Field.ofVariable?]
  constructor
  · intro h
    split_ifs at h with hprefix
    have hrest := Field.find?_all_eq_some_iff.mp h
    obtain ⟨count, hcount⟩ :=
      exists_eq_replicate_append_stripAll variableStart.toList name.toList
    cases count with
    | zero =>
        -- nothing was stripped, although the start is there
        refine absurd (List.isPrefixOf_iff_prefix.mp hprefix) ?_
        rw [hcount]
        exact Field.not_isPrefix hrest
    | succ count => exact ⟨count, _, hcount, hrest⟩
  · intro h
    rw [if_pos (List.isPrefixOf_iff_prefix.mpr h.isPrefix)]
    obtain ⟨count, rest, hname, hrest⟩ := h
    rw [hname, stripAll_replicate (count + 1) (Field.not_isPrefix hrest)]
    exact Field.find?_all_eq_some_iff.mpr hrest

theorem Field.ofVariable?_eq_none_iff {name : String} :
    Field.ofVariable? name = none ↔ ∀ field : Field, ¬ field.SetBy name := by
  simp only [Option.eq_none_iff_forall_ne_some, ne_eq, ofVariable?_eq_some_iff]

example : Field.ofVariable? "REGISTRY_ACME_REGISTRY_ACME_Ca_Root" = some .caRoot := by decide +kernel

/-! ## The fields that variables set -/

def fieldsOf (vars : List Variable) : RawFields :=
  vars.filterMap fun entry => (Field.ofVariable? entry.1).map fun field => (field, entry.2)

theorem mem_fieldsOf {vars : List Variable} {field : Field} {text : String} :
    (field, text) ∈ fieldsOf vars ↔ ∃ name, (name, text) ∈ vars ∧ field.SetBy name := by
  simp only [fieldsOf, List.mem_filterMap, Option.map_eq_some_iff, Prod.mk.injEq,
    Field.ofVariable?_eq_some_iff]
  constructor
  · rintro ⟨⟨name, value⟩, hmem, found, hset, rfl, rfl⟩
    exact ⟨name, hmem, hset⟩
  · rintro ⟨name, hmem, hset⟩
    exact ⟨(name, text), hmem, field, hset, rfl, rfl⟩

theorem fieldsOf_append (before after : List Variable) :
    fieldsOf (before ++ after) = fieldsOf before ++ fieldsOf after :=
  List.filterMap_append

theorem fieldsOf_cons (entry : Variable) (vars : List Variable) :
    fieldsOf (entry :: vars) =
      ((Field.ofVariable? entry.1).map fun field => (field, entry.2)).toList ++ fieldsOf vars := by
  rw [fieldsOf, List.filterMap_cons]
  cases Field.ofVariable? entry.1 <;> rfl

def Unambiguous (vars : List Variable) : Prop :=
  vars.Pairwise fun first second => ∀ field : Field, field.SetBy first.1 → ¬ field.SetBy second.1

theorem unambiguous_iff_nodup {vars : List Variable} :
    Unambiguous vars ↔ ((fieldsOf vars).map Prod.fst).Nodup := by
  rw [List.Nodup, List.pairwise_map, fieldsOf, List.pairwise_filterMap, Unambiguous]
  simp only [Option.map_eq_some_iff, Field.ofVariable?_eq_some_iff]
  constructor
  · refine List.Pairwise.imp ?_
    rintro first second h - ⟨field, hfirst, rfl⟩ - ⟨other, hsecond, rfl⟩ rfl
    exact h field hfirst hsecond
  · refine List.Pairwise.imp ?_
    intro first second h field hfirst hsecond
    exact h _ ⟨field, hfirst, rfl⟩ _ ⟨field, hsecond, rfl⟩ rfl

theorem exists_first_repeat {vars : List Variable} (h : ¬ Unambiguous vars) :
    ∃ before again after field, vars = before ++ again :: after ∧ Unambiguous before ∧
      Field.SetBy field again.1 ∧ ∃ earlier ∈ before, Field.SetBy field earlier.1 := by
  induction vars using List.reverseRecOn with
  | nil => exact absurd .nil h
  | append_singleton vars last ih =>
      by_cases hvars : Unambiguous vars
      · have hlast : ∃ earlier ∈ vars, ∃ field : Field,
            field.SetBy earlier.1 ∧ field.SetBy last.1 := by
          by_contra hnone
          push Not at hnone
          refine h (List.pairwise_append.mpr ⟨hvars, List.pairwise_singleton _ _, ?_⟩)
          intro earlier hearlier again hagain
          rw [List.mem_singleton.mp hagain]
          exact hnone earlier hearlier
        obtain ⟨earlier, hmem, field, hearlier, hlast⟩ := hlast
        exact ⟨vars, last, [], field, rfl, hvars, hlast, earlier, hmem, hearlier⟩
      · obtain ⟨before, again, after, field, rfl, hrest⟩ := ih hvars
        exact ⟨before, again, after ++ [last], field, by simp, hrest⟩

/-! ## Gathering -/

def gatherFields (found : RawFields) : RawFields → Except ConfigError RawFields
  | [] => .ok found
  | (field, text) :: rest =>
      if field ∈ found.map Prod.fst then .error (.gather (.duplicateField field.name))
      else gatherFields (found ++ [(field, text)]) rest

theorem gatherOnto_eq (found : RawFields) (vars : List Variable) :
    gatherOnto found vars = gatherFields found (fieldsOf vars) := by
  induction vars generalizing found with
  | nil => rfl
  | cons entry rest ih =>
      obtain ⟨name, text⟩ := entry
      cases hfield : Field.ofVariable? name with
      | none => simp [gatherOnto, fieldsOf_cons, hfield, ih]
      | some field =>
          have hany : (found.any fun entry => entry.1 == field) = true ↔
              field ∈ found.map Prod.fst := by
            simp
          simp only [gatherOnto, fieldsOf_cons, hfield, hany, ih, gatherFields, Option.map_some,
            Option.toList_some, List.singleton_append]

theorem gather_congr {vars others : List Variable} (h : fieldsOf vars = fieldsOf others) :
    gather vars = gather others := by
  rw [gather, gather, gatherOnto_eq, gatherOnto_eq, h]

theorem gatherFields_append {found before : RawFields} (after : RawFields)
    (h : ((found ++ before).map Prod.fst).Nodup) :
    gatherFields found (before ++ after) = gatherFields (found ++ before) after := by
  induction before generalizing found with
  | nil => simp
  | cons entry rest ih =>
      obtain ⟨field, text⟩ := entry
      have hfresh : field ∉ found.map Prod.fst := by
        intro hmem
        rw [List.map_append] at h
        exact List.disjoint_of_nodup_append h hmem (by simp)
      rw [List.append_cons] at h
      rw [List.cons_append, gatherFields, if_neg hfresh, ih h, List.append_assoc,
        List.singleton_append]

theorem gather_of_unambiguous {vars : List Variable} (h : Unambiguous vars) :
    gather vars = .ok (fieldsOf vars) := by
  have hgather : gatherFields [] (fieldsOf vars ++ []) = .ok ([] ++ fieldsOf vars) :=
    gatherFields_append [] (unambiguous_iff_nodup.mp h)
  rwa [List.append_nil, List.nil_append, ← gatherOnto_eq] at hgather

theorem gather_of_repeat {before : List Variable} {again earlier : Variable} {field : Field}
    (after : List Variable) (hbefore : Unambiguous before) (hagain : field.SetBy again.1)
    (hmem : earlier ∈ before) (hearlier : field.SetBy earlier.1) :
    gather (before ++ again :: after) = .error (.gather (.duplicateField field.name)) := by
  have hfound : field ∈ (fieldsOf before).map Prod.fst :=
    List.mem_map.mpr ⟨(field, earlier.2), mem_fieldsOf.mpr ⟨earlier.1, hmem, hearlier⟩, rfl⟩
  have hfield := Field.ofVariable?_eq_some_iff.mpr hagain
  rw [gather, gatherOnto_eq, fieldsOf_append, fieldsOf_cons, hfield, Option.map_some,
    Option.toList_some, List.singleton_append,
    gatherFields_append _ (unambiguous_iff_nodup.mp hbefore), List.nil_append, gatherFields,
    if_pos hfound]

/-! ## What a field is set to -/

def Gives (vars : List Variable) (value : Field → Option String) : Prop :=
  ∀ field text, value field = some text ↔ ∃ name, (name, text) ∈ vars ∧ field.SetBy name

theorem Gives.eq {vars : List Variable} {first second : Field → Option String}
    (hfirst : Gives vars first) (hsecond : Gives vars second) : first = second := by
  funext field
  exact Option.ext fun text => (hfirst field text).trans (hsecond field text).symm

theorem lookup_eq_some_iff_mem {raw : RawFields} (h : (raw.map Prod.fst).Nodup) {field : Field}
    {text : String} : raw.lookup field = some text ↔ (field, text) ∈ raw := by
  induction raw with
  | nil => simp
  | cons entry rest ih =>
      obtain ⟨first, value⟩ := entry
      rw [List.map_cons, List.nodup_cons] at h
      obtain ⟨hfirst, hrest⟩ := h
      rw [List.lookup_cons, List.mem_cons, Prod.mk.injEq]
      by_cases hfield : field = first
      · subst hfield
        have hmem : (field, text) ∉ rest := by
          intro hmem
          exact hfirst (List.mem_map.mpr ⟨(field, text), hmem, rfl⟩)
        simp [hmem, eq_comm]
      · rw [beq_eq_false_iff_ne.mpr hfield]
        simp [hfield, ih hrest]

theorem gives_lookup_fieldsOf {vars : List Variable} (h : Unambiguous vars) :
    Gives vars fun field => (fieldsOf vars).lookup field := by
  intro field text
  rw [lookup_eq_some_iff_mem (unambiguous_iff_nodup.mp h), mem_fieldsOf]

end RegistryFront.Acme
