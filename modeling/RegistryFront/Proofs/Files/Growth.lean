import Mathlib.Order.Defs.Unbundled
import RegistryFront.Files.Action

/-!
# Growing disks

What is done to a disk here takes nothing away: files stay files, directories stay directories,
links stay as they are, and no link is made.  A path that leads somewhere leads there ever after.
-/

namespace RegistryFront.Files.Disk

/-! ## Putting a node at a place -/

private theorem lookup_map_put (entries : List (Place × Node)) (place other : Place) (node : Node) :
    (entries.map fun entry => if entry.1 == place then (place, node) else entry).lookup other =
      if other = place then (entries.lookup place).map fun _ => node else entries.lookup other := by
  induction entries with
  | nil => simp
  | cons entry rest ih =>
      obtain ⟨name, old⟩ := entry
      by_cases hname : name = place
      · subst hname
        by_cases hother : other = name
        · simp [hother]
        · simpa [List.lookup_cons, hother, beq_false_of_ne hother] using ih
      · by_cases hother : other = name
        · subst hother
          simp [hname]
        · by_cases hplace : other = place
          · subst hplace
            simpa [List.lookup_cons, hname, hother, beq_false_of_ne hother] using ih
          · simpa [List.lookup_cons, hname, hother, beq_false_of_ne hother, hplace] using ih

private theorem lookup_eq_none_of_not_any {entries : List (Place × Node)} {place : Place}
    (h : ¬ entries.any (·.1 == place)) : entries.lookup place = none := by
  rw [List.lookup_eq_none_iff]
  intro entry hmem
  have hne : place ≠ entry.1 := fun heq => h (List.any_eq_true.mpr ⟨entry, hmem, by simp [heq]⟩)
  exact bne_iff_ne.mpr hne

private theorem lookup_append_put (entries : List (Place × Node)) (place other : Place)
    (node : Node) (h : ¬ entries.any (·.1 == place)) :
    (entries ++ [(place, node)]).lookup other =
      if other = place then some node else entries.lookup other := by
  rw [List.lookup_append]
  by_cases hother : other = place
  · subst hother
    simp [lookup_eq_none_of_not_any h]
  · simp [List.lookup_cons, beq_false_of_ne hother, hother]

@[simp] theorem node?_nil (disk : Disk) : disk.node? [] = some (.directory 0o755) := rfl

theorem node?_put {disk : Disk} {place : Place} (hplace : place ≠ []) (other : Place)
    (node : Node) :
    (disk.put place node).node? other = if other = place then some node else disk.node? other := by
  cases other with
  | nil => simp [Ne.symm hplace]
  | cons name rest =>
      change (disk.put place node).entries.lookup _ = if _ then _ else disk.entries.lookup _
      unfold put
      by_cases hany : disk.entries.any (·.1 == place)
      · have hlookup : disk.entries.lookup place ≠ none := by
          rw [Ne, List.lookup_eq_none_iff]
          obtain ⟨entry, hmem, hentry⟩ := List.any_eq_true.mp hany
          intro hall
          simpa [beq_iff_eq.mp hentry] using hall entry hmem
        obtain ⟨old, hold⟩ := Option.ne_none_iff_exists'.mp hlookup
        rw [if_pos hany]
        dsimp only
        rw [lookup_map_put, hold]
        rfl
      · rw [if_neg hany]
        exact lookup_append_put disk.entries place _ node hany

@[simp] theorem node?_put_nil (disk : Disk) (other : Place) (node : Node) :
    (disk.put [] node).node? other = disk.node? other := by
  cases other with
  | nil => rfl
  | cons name rest =>
      change (disk.put [] node).entries.lookup _ = disk.entries.lookup _
      unfold put
      by_cases hany : disk.entries.any (·.1 == [])
      · rw [if_pos hany]
        dsimp only
        rw [lookup_map_put]
        simp
      · rw [if_neg hany]
        dsimp only
        rw [lookup_append_put disk.entries [] _ node hany]
        simp

@[simp] theorem base_put (disk : Disk) (place : Place) (node : Node) :
    (disk.put place node).base = disk.base := by
  unfold put
  split <;> rfl

/-! ## Growth -/

structure Grows (before after : Disk) : Prop where
  base : after.base = before.base
  file : ∀ place mode content, before.node? place = some (.file mode content) →
    ∃ mode content, after.node? place = some (.file mode content)
  directory : ∀ place mode, before.node? place = some (.directory mode) →
    ∃ mode, after.node? place = some (.directory mode)
  link : ∀ place target,
    after.node? place = some (.link target) ↔ before.node? place = some (.link target)

instance : IsPreorder Disk Grows where
  refl disk := ⟨rfl, fun _ mode content h => ⟨mode, content, h⟩, fun _ mode h => ⟨mode, h⟩,
    fun _ _ => Iff.rfl⟩
  trans := by
    intro first second third h h'
    refine ⟨h'.base.trans h.base, fun place mode content hfile => ?_,
      fun place mode hdirectory => ?_,
      fun place target => (h'.link place target).trans (h.link place target)⟩
    · obtain ⟨mode, content, hfile⟩ := h.file place mode content hfile
      exact h'.file place mode content hfile
    · obtain ⟨mode, hdirectory⟩ := h.directory place mode hdirectory
      exact h'.directory place mode hdirectory

theorem grows_put {disk : Disk} {place : Place} {node : Node}
    (hnode : match node with
      | .file .. => ∀ mode, disk.node? place ≠ some (.directory mode)
      | .directory _ => ∀ mode content, disk.node? place ≠ some (.file mode content)
      | .link _ => False)
    (hlink : ∀ target, disk.node? place ≠ some (.link target)) :
    Grows disk (disk.put place node) := by
  by_cases hplace : place = []
  · subst hplace
    exact ⟨base_put .., fun other mode content h => ⟨mode, content, by simpa using h⟩,
      fun other mode h => ⟨mode, by simpa using h⟩, by simp⟩
  refine ⟨base_put .., fun other mode content h => ?_, fun other mode h => ?_,
    fun other target => ?_⟩
  all_goals simp only [node?_put hplace]
  · split
    · next heq =>
        subst heq
        cases node with
        | file mode content => exact ⟨mode, content, rfl⟩
        | directory => exact absurd h (hnode mode content)
        | link => exact hnode.elim
    · exact ⟨mode, content, h⟩
  · split
    · next heq =>
        subst heq
        cases node with
        | file => exact absurd h (hnode mode)
        | directory mode => exact ⟨mode, rfl⟩
        | link => exact hnode.elim
    · exact ⟨mode, h⟩
  · split
    · next heq =>
        subst heq
        cases node with
        | link => exact hnode.elim
        | _ => simpa using hlink target
    · exact Iff.rfl

end RegistryFront.Files.Disk
