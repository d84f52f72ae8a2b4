import Mathlib.Data.Set.Card
import RegistryFront.Table

/-!
# Tables and what has happened to them

Events may set the value of a key in a table or take it away.  What is found under a key afterwards
is what the last event about the key has left there.
-/

namespace RegistryFront

variable {α β ε : Type}

/-! ## The latest of some events -/

/-- Of the events that are about something this is the last one. -/
def Latest (about : ε → Prop) (events : List ε) (event : ε) : Prop :=
  ∃ before after, events = before ++ event :: after ∧ about event ∧ ∀ later ∈ after, ¬ about later

theorem Latest.about {about : ε → Prop} {events : List ε} {event : ε}
    (h : Latest about events event) : about event := by
  obtain ⟨-, -, -, habout, -⟩ := h
  exact habout

theorem not_latest_nil (about : ε → Prop) (event : ε) : ¬ Latest about [] event := by
  rintro ⟨before, after, hevents, -⟩
  simp at hevents

theorem latest_append_singleton (about : ε → Prop) (events : List ε) (last event : ε) :
    Latest about (events ++ [last]) event ↔
      about last ∧ event = last ∨ ¬ about last ∧ Latest about events event := by
  constructor
  · rintro ⟨before, after, hevents, habout, hafter⟩
    rcases List.eq_nil_or_concat' after with rfl | ⟨after, final, rfl⟩
    · have hlast : events = before ∧ last = event := by simpa using hevents
      obtain ⟨rfl, rfl⟩ := hlast
      exact .inl ⟨habout, rfl⟩
    · rw [← List.cons_append, ← List.append_assoc] at hevents
      obtain ⟨rfl, hlast⟩ := List.append_inj' hevents rfl
      obtain rfl := List.singleton_inj.mp hlast
      have hfinal : ¬ about last := hafter last (by simp)
      have hrest : ∀ later ∈ after, ¬ about later := by
        intro later hmem
        exact hafter later (by simp [hmem])
      exact .inr ⟨hfinal, before, after, rfl, habout, hrest⟩
  · rintro (⟨habout, rfl⟩ | ⟨hlast, before, after, rfl, habout, hafter⟩)
    · exact ⟨events, [], rfl, habout, by simp⟩
    · refine ⟨before, after ++ [last], by simp, habout, ?_⟩
      intro later hmem
      rcases List.mem_append.mp hmem with hmem | hmem
      · exact hafter later hmem
      · rw [List.mem_singleton.mp hmem]
        exact hlast

theorem latest_filter {about : ε → Prop} {keep : ε → Bool} (h : ∀ event, about event → keep event)
    (events : List ε) (event : ε) :
    Latest about (events.filter keep) event ↔ Latest about events event := by
  induction events using List.reverseRecOn with
  | nil => rfl
  | append_singleton events last ih =>
      rw [List.filter_append]
      cases hkeep : keep last with
      | true =>
          simp only [List.filter_singleton, hkeep, cond_true, latest_append_singleton, ih]
      | false =>
          have hlast : ¬ about last := by
            intro habout
            simp [h last habout] at hkeep
          simp [hkeep, latest_append_singleton, hlast, ih]

/-! ## Events of a table -/

namespace Table

theorem size_eq_ncard [DecidableEq α] (table : Table α β) :
    table.size = Set.ncard {key | (table.get? key).isSome} := by
  have hkeys : {key | (table.get? key).isSome} = ↑(table.entries.map (·.1)).toFinset := by
    ext key
    simp only [Set.mem_ofPred_eq, List.coe_toFinset, get?, List.lookup_isSome_iff]
    simp
  rw [hkeys, Set.ncard_coe_finset, List.toFinset_card_of_nodup table.keys_nodup, List.length_map]
  rfl

/-- What an event does: nothing, or it gives a key a new value or none. -/
abbrev Effect (α β : Type) := Option (α × Option β)

variable [DecidableEq α]

def undergo (table : Table α β) : Effect α β → Table α β
  | none => table
  | some (key, some value) => table.insert key value
  | some (key, none) => table.erase key

theorem get?_undergo_self (table : Table α β) (key : α) (value? : Option β) :
    (table.undergo (some (key, value?))).get? key = value? := by
  cases value? with
  | none => exact table.get?_erase_self key
  | some value => exact table.get?_insert_self key value

theorem get?_undergo_of_ne (table : Table α β) {effect : Effect α β} {key : α}
    (h : ∀ value?, effect ≠ some (key, value?)) :
    (table.undergo effect).get? key = table.get? key := by
  match effect with
  | none => rfl
  | some (other, value?) =>
      have hne : key ≠ other := by
        rintro rfl
        exact h value? rfl
      cases value? with
      | none => exact table.get?_erase_of_ne hne
      | some value => exact table.get?_insert_of_ne value hne

theorem get?_after (effect : ε → Effect α β) (events : List ε) (key : α) (value : β) :
    (events.foldl (fun table event => table.undergo (effect event)) empty).get? key = some value ↔
      ∃ event, Latest (fun event => ∃ value?, effect event = some (key, value?)) events event ∧
        effect event = some (key, some value) := by
  induction events using List.reverseRecOn with
  | nil => simp [not_latest_nil, get?, empty]
  | append_singleton events last ih =>
      rw [List.foldl_append, List.foldl_cons, List.foldl_nil]
      simp only [latest_append_singleton]
      by_cases habout : ∃ value?, effect last = some (key, value?)
      · obtain ⟨value?, heffect⟩ := habout
        rw [heffect, get?_undergo_self]
        simp [heffect]
      · have hnone : ∀ value?, effect last ≠ some (key, value?) := not_exists.mp habout
        rw [get?_undergo_of_ne _ hnone, ih]
        simp [habout]

end Table

end RegistryFront
