import RegistryFront.Proofs.Acme.Configuration
import RegistryFront.Proofs.Text.Utf8

/-!
# The environment of the process

The environment is full of variables of others, in any order, and some of them are no text.  None of
that has a say in the configuration; only a variable of ours that holds no text is an error.
-/

namespace RegistryFront

open Text.Utf8 (decode? encode)

namespace Environment

def texts (environment : List (Bytes × Bytes)) : List Variable :=
  environment.filterMap fun entry =>
    (decode? entry.1).bind fun name => (decode? entry.2).map fun value => (name, value)

/-- A variable of this name, which is text and begins with `start`, holds bytes that are none. -/
def Unreadable (start : String) (entry : Bytes × Bytes) (name : String) : Prop :=
  decode? entry.1 = some name ∧ start.toList <+: name.toList ∧ decode? entry.2 = none

def FirstUnreadable (start : String) (environment : List (Bytes × Bytes)) (name : String) : Prop :=
  ∃ before entry after, environment = before ++ entry :: after ∧ Unreadable start entry name ∧
    ∀ earlier ∈ before, ∀ other, ¬ Unreadable start earlier other

def unreadable? (start : String) (entry : Bytes × Bytes) : Option String :=
  (decode? entry.1).filter fun name =>
    start.toList.isPrefixOf name.toList && (decode? entry.2).isNone

theorem unreadable?_eq_some_iff {start name : String} {entry : Bytes × Bytes} :
    unreadable? start entry = some name ↔ Unreadable start entry name := by
  simp [unreadable?, Unreadable, Option.filter_eq_some_iff]

theorem unreadable?_eq_none_iff {start : String} {entry : Bytes × Bytes} :
    unreadable? start entry = none ↔ ∀ name, ¬ Unreadable start entry name := by
  simp only [Option.eq_none_iff_forall_ne_some, ne_eq, unreadable?_eq_some_iff]

theorem findSome?_unreadable?_eq_some_iff {start name : String}
    {environment : List (Bytes × Bytes)} :
    environment.findSome? (unreadable? start) = some name ↔
      FirstUnreadable start environment name := by
  simp only [List.findSome?_eq_some_iff, unreadable?_eq_some_iff, unreadable?_eq_none_iff,
    FirstUnreadable]

theorem startingWith_eq (start : String) (environment : List (Bytes × Bytes)) :
    startingWith start environment =
      match environment.findSome? (unreadable? start) with
      | some name => .error (.notText name)
      | none => .ok ((texts environment).filter fun entry =>
          start.toList.isPrefixOf entry.1.toList) := by
  induction environment with
  | nil => rfl
  | cons entry rest ih =>
      obtain ⟨name, value⟩ := entry
      rw [startingWith, List.findSome?_cons, unreadable?, texts, List.filterMap_cons]
      cases hname : decode? name with
      | none => simp only [Option.filter_none, Option.bind_none, ih, texts]
      | some name =>
          by_cases hstart : start.toList.isPrefixOf name.toList = true
          · cases hvalue : decode? value with
            | none =>
                simp only [Option.filter_some, hstart, Option.isNone_none, Bool.and_self, if_true]
            | some value =>
                simp only [Option.filter_some, hstart, Option.isNone_some, Bool.and_false,
                  Bool.false_eq_true, if_false, if_true, ih, texts, Option.bind_some,
                  Option.map_some, List.filter_cons]
                cases rest.findSome? (unreadable? start) <;> rfl
          · rw [Bool.not_eq_true] at hstart
            cases decode? value <;>
              simp only [Option.filter_some, hstart, Bool.false_and, Bool.false_eq_true, if_false,
                ih, texts, Option.bind_some, Option.map_none, Option.map_some, List.filter_cons]

theorem startingWith_eq_error_iff {start : String} {environment : List (Bytes × Bytes)}
    {failure : ConfigError} :
    startingWith start environment = .error failure ↔
      ∃ name, FirstUnreadable start environment name ∧ failure = .notText name := by
  simp only [← findSome?_unreadable?_eq_some_iff]
  rw [startingWith_eq]
  cases environment.findSome? (unreadable? start) <;> simp [eq_comm]

end Environment

namespace Acme

open Environment

/-! ## What counts in the environment -/

theorem fieldsOf_filter_startingWith (vars : List Variable) :
    fieldsOf (vars.filter fun entry => variableStart.toList.isPrefixOf entry.1.toList) =
      fieldsOf vars := by
  rw [fieldsOf, List.filterMap_filter, fieldsOf]
  refine List.filterMap_congr fun entry _ => ?_
  by_cases hstart : variableStart.toList.isPrefixOf entry.1.toList = true
  · rw [if_pos hstart]
  · have hnone : Field.ofVariable? entry.1 = none := if_neg hstart
    rw [if_neg hstart, hnone]
    rfl

theorem Config.ofVariables_congr {vars others : List Variable} (h : fieldsOf vars = fieldsOf others) :
    ofVariables vars = ofVariables others := by
  rw [ofVariables, ofVariables, gather_congr h]

theorem Config.ofEnvironment_eq (environment : List (Bytes × Bytes)) :
    ofEnvironment environment =
      match environment.findSome? (unreadable? variableStart) with
      | some name => .error (.notText name)
      | none => ofVariables (texts environment) := by
  rw [ofEnvironment, startingWith_eq]
  cases environment.findSome? (unreadable? variableStart) with
  | some name => rfl
  | none => exact ofVariables_congr (fieldsOf_filter_startingWith _)

/-! ## Variables of others -/

/-- A variable without a say: its name is not one of ours or no text, or it is text and sets no
field. -/
def Harmless (entry : Bytes × Bytes) : Prop :=
  ¬ encode variableStart <+: entry.1 ∨ decode? entry.1 = none ∨
    decode? entry.2 ≠ none ∧
      ∀ name, decode? entry.1 = some name → ∀ field : Field, ¬ field.SetBy name

/-- The second environment is the first one with harmless variables put in anywhere. -/
inductive Padded : List (Bytes × Bytes) → List (Bytes × Bytes) → Prop
  | nil : Padded [] []
  | keep (entry : Bytes × Bytes) {environment padded : List (Bytes × Bytes)}
      (h : Padded environment padded) : Padded (entry :: environment) (entry :: padded)
  | insert {entry : Bytes × Bytes} (hentry : Harmless entry)
      {environment padded : List (Bytes × Bytes)} (h : Padded environment padded) :
      Padded environment (entry :: padded)

theorem encode_isPrefix_of_decode? {bytes : Bytes} {name start : String}
    (hname : decode? bytes = some name) (hstart : start.toList <+: name.toList) :
    encode start <+: bytes := by
  obtain ⟨rest, hrest⟩ := hstart
  rw [← Text.Utf8.encode_of_decode? hname, encode, encode, ← hrest,
    Text.Utf8.encodeChars_append]
  exact List.prefix_append _ _

theorem Harmless.readable {entry : Bytes × Bytes} (h : Harmless entry) :
    unreadable? variableStart entry = none := by
  rw [unreadable?_eq_none_iff]
  rintro name ⟨hname, hstart, hvalue⟩
  rcases h with hbytes | hnone | ⟨htext, -⟩
  · exact hbytes (encode_isPrefix_of_decode? hname hstart)
  · rw [hnone] at hname
    cases hname
  · exact htext hvalue

theorem Harmless.not_setBy {entry : Bytes × Bytes} (h : Harmless entry) {name : String}
    (hname : decode? entry.1 = some name) (field : Field) : ¬ field.SetBy name := by
  rcases h with hbytes | hnone | ⟨-, hset⟩
  · exact fun hset => hbytes (encode_isPrefix_of_decode? hname hset.isPrefix)
  · rw [hnone] at hname
    cases hname
  · exact hset name hname field

theorem Harmless.fieldsOf_texts_cons {entry : Bytes × Bytes} (h : Harmless entry)
    (environment : List (Bytes × Bytes)) :
    fieldsOf (texts (entry :: environment)) = fieldsOf (texts environment) := by
  rw [texts, List.filterMap_cons]
  cases hname : decode? entry.1 with
  | none => rfl
  | some name =>
      cases decode? entry.2 with
      | none => rfl
      | some value =>
          have hnone := Field.ofVariable?_eq_none_iff.mpr (h.not_setBy hname)
          simp only [Option.bind_some, Option.map_some, fieldsOf_cons, hnone, Option.map_none,
            Option.toList_none, List.nil_append, texts]

theorem Padded.findSome?_eq {environment padded : List (Bytes × Bytes)}
    (h : Padded environment padded) :
    padded.findSome? (unreadable? variableStart) =
      environment.findSome? (unreadable? variableStart) := by
  induction h with
  | nil => rfl
  | keep entry _ ih => rw [List.findSome?_cons, List.findSome?_cons, ih]
  | insert hentry _ ih => rw [List.findSome?_cons, hentry.readable, ih]

theorem Padded.fieldsOf_texts {environment padded : List (Bytes × Bytes)}
    (h : Padded environment padded) :
    fieldsOf (texts padded) = fieldsOf (texts environment) := by
  induction h with
  | nil => rfl
  | keep entry _ ih =>
      rw [texts, texts, List.filterMap_cons, List.filterMap_cons]
      split
      · exact ih
      · rw [fieldsOf_cons, fieldsOf_cons, ← texts, ih, ← texts]
  | insert hentry _ ih => rw [hentry.fieldsOf_texts_cons, ih]

theorem Config.ofEnvironment_of_padded {environment padded : List (Bytes × Bytes)}
    (h : Padded environment padded) : ofEnvironment padded = ofEnvironment environment := by
  rw [ofEnvironment_eq, ofEnvironment_eq, h.findSome?_eq]
  cases environment.findSome? (unreadable? variableStart) with
  | some name => rfl
  | none => exact ofVariables_congr h.fieldsOf_texts

/-! ## The order of the variables -/

/-- No two variables set the same field, whatever they hold. -/
def Apart (environment : List (Bytes × Bytes)) : Prop :=
  environment.Pairwise fun first second => ∀ name other, decode? first.1 = some name →
    decode? second.1 = some other → ∀ field : Field, field.SetBy name → ¬ field.SetBy other

theorem Unambiguous.perm {vars others : List Variable} (h : Unambiguous vars)
    (hperm : vars.Perm others) : Unambiguous others := by
  refine (hperm.pairwise_iff ?_).mp h
  intro first second hdistinct field hsecond hfirst
  exact hdistinct field hfirst hsecond

theorem Config.ofVariables_of_perm {vars others : List Variable} (h : Unambiguous vars)
    (hperm : vars.Perm others) : ofVariables others = ofVariables vars := by
  have hgives : Gives vars fun field => (fieldsOf others).lookup field := by
    intro field text
    rw [gives_lookup_fieldsOf (h.perm hperm) field text]
    simp only [hperm.mem_iff]
  have hlookup := hgives.eq (gives_lookup_fieldsOf h)
  rw [ofVariables_of_unambiguous h, ofVariables_of_unambiguous (h.perm hperm)]
  refine ofRawFields_eq_of_decides ?_
  rw [hlookup]
  exact decides_ofRawFields (fieldsOf vars)

theorem Config.ofEnvironment_of_perm {environment others : List (Bytes × Bytes)}
    (h : Unambiguous (texts environment)) (hperm : environment.Perm others) :
    ofEnvironment others = ofEnvironment environment ↔
      ∀ name, FirstUnreadable variableStart others name ↔
        FirstUnreadable variableStart environment name := by
  simp only [← findSome?_unreadable?_eq_some_iff]
  rw [← Option.ext_iff, ofEnvironment_eq, ofEnvironment_eq]
  have hnone : others.findSome? (unreadable? variableStart) = none ↔
      environment.findSome? (unreadable? variableStart) = none := by
    simp only [List.findSome?_eq_none_iff, hperm.mem_iff]
  cases hfirst : environment.findSome? (unreadable? variableStart) with
  | none =>
      rw [hnone.mpr hfirst]
      simp only [iff_true]
      exact ofVariables_of_perm h (hperm.filterMap _)
  | some name =>
      cases hother : others.findSome? (unreadable? variableStart) with
      | none => simp [hnone.mp hother] at hfirst
      | some other => simp

/-! ## Everything about the environment -/

/-- Reading the environment fails just when some variable of ours is unreadable, and names the first
one; otherwise all that is text counts as if it had been handed in.  The order of the variables
matters only for which unreadable one comes first, and harmless variables do not matter. -/
theorem Config.ofEnvironment_settled (environment : List (Bytes × Bytes)) :
    (∀ failure, startingWith variableStart environment = .error failure ↔
      ∃ name, FirstUnreadable variableStart environment name ∧ failure = .notText name) ∧
    (∀ vars, startingWith variableStart environment = .ok vars →
      ofVariables vars = ofVariables (texts environment)) ∧
    (Unambiguous (texts environment) → ∀ others, environment.Perm others →
      (ofEnvironment others = ofEnvironment environment ↔
        ∀ name, FirstUnreadable variableStart others name ↔
          FirstUnreadable variableStart environment name)) ∧
    ∀ padded, Padded environment padded → ofEnvironment padded = ofEnvironment environment := by
  refine ⟨?_, ?_, ?_, ?_⟩
  · exact fun failure => startingWith_eq_error_iff
  · intro vars hvars
    rw [startingWith_eq] at hvars
    cases hfirst : environment.findSome? (unreadable? variableStart) with
    | some name => simp [hfirst] at hvars
    | none =>
        rw [hfirst] at hvars
        cases hvars
        exact ofVariables_congr (fieldsOf_filter_startingWith _)
  · exact fun h others hperm => ofEnvironment_of_perm h hperm
  · exact fun padded hpadded => ofEnvironment_of_padded hpadded

/-- With two unreadable variables the order tells, even though they set different fields. -/
theorem Config.not_forall_ofEnvironment_of_perm :
    ¬ ∀ environment others : List (Bytes × Bytes), Apart environment →
      environment.Perm others → ofEnvironment others = ofEnvironment environment := by
  intro h
  have hbroken : decode? [0xFF] = none := by decide +kernel
  have hemail : Field.ofVariable? "REGISTRY_ACME_EMAIL" = some .email := by decide +kernel
  have hca : Field.ofVariable? "REGISTRY_ACME_CA" = some .ca := by decide +kernel
  have hfirst (name : String) (field : Field) (rest : List (Bytes × Bytes))
      (hname : Field.ofVariable? name = some field) :
      ofEnvironment ((encode name, [0xFF]) :: rest) = .error (.notText name) := by
    have hstart := (Field.ofVariable?_eq_some_iff.mp hname).isPrefix
    have hunreadable : unreadable? variableStart (encode name, [0xFF]) = some name :=
      unreadable?_eq_some_iff.mpr ⟨Text.Utf8.decode?_encode name, hstart, hbroken⟩
    rw [ofEnvironment_eq, List.findSome?_cons, hunreadable]
  have hapart : Apart [(encode "REGISTRY_ACME_EMAIL", [0xFF]),
      (encode "REGISTRY_ACME_CA", [0xFF])] := by
    refine List.pairwise_pair.mpr ?_
    intro name other hname hother field hfield hagain
    rw [Text.Utf8.decode?_encode, Option.some.injEq] at hname hother
    subst hname hother
    rw [← Field.ofVariable?_eq_some_iff, hemail] at hfield
    rw [← Field.ofVariable?_eq_some_iff, hca] at hagain
    cases hfield
    cases hagain
  have hsame := h _ _ hapart (.swap _ _ [])
  rw [hfirst _ _ _ hemail, hfirst _ _ _ hca] at hsame
  simp at hsame

end Acme

end RegistryFront
