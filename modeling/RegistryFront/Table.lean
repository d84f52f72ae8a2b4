/-!
# Tables

A table holds at most one value for a key; a new value takes the place of the old one.
-/

namespace RegistryFront

structure Table (α β : Type) where
  entries : List (α × β)
  keys_nodup : (entries.map (·.1)).Nodup
  deriving DecidableEq

namespace Table

variable {α β : Type}

def empty : Table α β := ⟨[], List.nodup_nil⟩

instance : Inhabited (Table α β) := ⟨empty⟩

def size (table : Table α β) : Nat := table.entries.length

variable [DecidableEq α]

def get? (table : Table α β) (key : α) : Option β := table.entries.lookup key

def erase (table : Table α β) (key : α) : Table α β :=
  ⟨table.entries.filter (·.1 ≠ key), table.keys_nodup.sublist (List.filter_sublist.map _)⟩

theorem not_mem_keys_erase (table : Table α β) (key : α) :
    key ∉ (table.erase key).entries.map (·.1) := by
  simp [erase]

def insert (table : Table α β) (key : α) (value : β) : Table α β :=
  ⟨(key, value) :: (table.erase key).entries, by
    rw [List.map_cons, List.nodup_cons]
    exact ⟨table.not_mem_keys_erase key, (table.erase key).keys_nodup⟩⟩

/-! ## What a look-up finds -/

@[simp] theorem get?_erase_self (table : Table α β) (key : α) :
    (table.erase key).get? key = none := by
  simp only [get?, erase, List.lookup_eq_none_iff, List.mem_filter]
  intro entry h
  simpa using fun heq => (of_decide_eq_true h.2) heq.symm

theorem lookup_filter_ne {key other : α} (h : other ≠ key) (entries : List (α × β)) :
    (entries.filter (·.1 ≠ key)).lookup other = entries.lookup other := by
  induction entries with
  | nil => rfl
  | cons entry entries ih =>
      obtain ⟨found, value⟩ := entry
      by_cases hfound : found = key
      · subst hfound
        have hne : (other == found) = false := beq_eq_false_iff_ne.mpr h
        rw [List.filter_cons_of_neg (by simp), ih, List.lookup_cons, hne]
      · rw [List.filter_cons_of_pos (by simp [hfound]), List.lookup_cons, List.lookup_cons, ih]

theorem get?_erase_of_ne (table : Table α β) {key other : α} (h : other ≠ key) :
    (table.erase key).get? other = table.get? other :=
  lookup_filter_ne h table.entries

@[simp] theorem get?_insert_self (table : Table α β) (key : α) (value : β) :
    (table.insert key value).get? key = some value := by
  simp [get?, insert]

theorem get?_insert_of_ne (table : Table α β) {key other : α} (value : β) (h : other ≠ key) :
    (table.insert key value).get? other = table.get? other := by
  have hne : (other == key) = false := beq_eq_false_iff_ne.mpr h
  rw [← get?_erase_of_ne table h]
  simp [get?, insert, List.lookup_cons, hne]

end Table

end RegistryFront
