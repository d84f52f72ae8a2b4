import RegistryFront.Proofs.Files.Effects

/-!
# What leaves files as they are

Directories are made without a change to any file, and their permissions are none of a file's
business.  What was seen at a path is then seen there still.
-/

namespace RegistryFront.Files

namespace Disk

/-- Nothing was taken away, and all files are as they were. -/
structure Spares (before after : Disk) : Prop where
  grows : Grows before after
  file : ∀ place mode content,
    after.node? place = some (.file mode content) ↔ before.node? place = some (.file mode content)

instance : IsPreorder Disk Spares where
  refl disk := ⟨refl disk, fun _ _ _ => Iff.rfl⟩
  trans _ _ _ h h' := ⟨IsTrans.trans _ _ _ h.grows h'.grows,
    fun place mode content => (h'.file place mode content).trans (h.file place mode content)⟩

variable {disk after : Disk} {path : String} {mode : Nat}

theorem spares_put_directory {place : Place}
    (hnode : disk.node? place = none ∨ disk.DirectoryAt place) :
    Spares disk (disk.put place (.directory mode)) := by
  have hnot : (∀ mode content, disk.node? place ≠ some (.file mode content)) ∧
      ∀ target, disk.node? place ≠ some (.link target) := by
    rcases hnode with hnone | ⟨mode, hdirectory⟩
    · simp [hnone]
    · simp [hdirectory]
  refine ⟨grows_put hnot.1 hnot.2, fun other mode content => ?_⟩
  by_cases hplace : place = []
  · subst hplace
    rw [node?_put_nil]
  · rw [node?_put hplace]
    split
    · next heq =>
        subst heq
        simp [hnot.1]
    · exact Iff.rfl

theorem spares_makeDirectory (h : disk.makeDirectory path mode = .ok after) :
    Spares disk after := by
  obtain ⟨place, -, hnode, rfl⟩ := exists_of_makeDirectory h
  exact spares_put_directory (.inl hnode)

theorem spares_makeDirectoriesOf (disk : Disk) (mode : Nat) (paths : List String) :
    Spares disk (disk.makeDirectoriesOf mode paths).2 := by
  induction paths generalizing disk with
  | nil => exact refl disk
  | cons path parents ih =>
      have hparents := ih disk
      have hmaking := disk.making mode path parents
      generalize disk.makeDirectoriesOf mode (path :: parents) = outcome at hmaking ⊢
      cases hmaking with
      | made hmake => exact spares_makeDirectory hmake
      | kept => exact refl disk
      | madeInside _ hmiddle hmake =>
          rw [hmiddle] at hparents
          exact IsTrans.trans _ _ _ hparents (spares_makeDirectory hmake)
      | keptInside _ hmiddle =>
          rw [hmiddle] at hparents
          exact hparents

theorem spares_setMode (h : disk.setMode path mode = .ok after)
    (hdirectory : ∀ place, disk.locate true path = .ok place → disk.DirectoryAt place) :
    Spares disk after := by
  obtain rfl | ⟨place, node, hlocate, hnode, -, rfl⟩ := exists_of_setMode h
  · exact refl _
  · obtain ⟨old, hold⟩ := hdirectory place hlocate
    obtain rfl : node = .directory old := Option.some.inj (hnode.symm.trans hold)
    exact spares_put_directory (.inr ⟨old, hold⟩)

theorem Spares.view_eq (h : Spares disk after) (hslash : Path.endsInSlash path = false)
    {content : Option Bytes} (hview : disk.view path = some content) :
    after.view path = some content := by
  unfold view at hview
  cases hfind : disk.find path with
  | error => simp [hfind] at hview
  | ok found =>
      obtain ⟨place, node⟩ := found
      simp only [hfind, Option.some.injEq] at hview
      obtain ⟨hlocate, hnode⟩ := locate_of_find hfind
      refine view_of_locate hslash (h.grows.locate hlocate) ?_
      rw [← hview, sight]
      cases node with
      | file => rw [(h.file _ _ _).mpr hnode]; rfl
      | directory =>
          obtain ⟨mode, hdirectory⟩ := h.grows.directory _ _ hnode
          rw [hdirectory]
          rfl
      | link => rw [(h.grows.link _ _).mpr hnode]; rfl

/-! ## Directories that are new -/

/-- Whatever was there is as it was, and what is new are directories with the mode, to which paths of
the list lead. -/
structure Adds (mode : Nat) (paths : List String) (before after : Disk) : Prop where
  grows : Grows before after
  kept : ∀ place node, before.node? place = some node → after.node? place = some node
  new : ∀ place, before.node? place = none → after.node? place = none ∨
    after.node? place = some (.directory mode) ∧ ∃ path ∈ paths, after.locate false path = .ok place

variable {paths : List String} {middle : Disk}

theorem adds_refl (mode : Nat) (paths : List String) (disk : Disk) : Adds mode paths disk disk :=
  ⟨refl disk, fun _ _ => id, fun _ => .inl⟩

theorem Adds.trans (h : Adds mode paths disk middle) (h' : Adds mode paths middle after) :
    Adds mode paths disk after := by
  refine ⟨IsTrans.trans _ _ _ h.grows h'.grows,
    fun place node hnode => h'.kept place node (h.kept place node hnode), fun place hnone => ?_⟩
  rcases h.new place hnone with hmiddle | ⟨hdirectory, other, hother, hlocate⟩
  · exact h'.new place hmiddle
  · exact .inr ⟨h'.kept _ _ hdirectory, other, hother, h'.grows.locate hlocate⟩

theorem Adds.mono (h : Adds mode paths disk after) {more : List String}
    (hmore : ∀ path ∈ paths, path ∈ more) : Adds mode more disk after :=
  ⟨h.grows, h.kept, fun place hnone => (h.new place hnone).imp_right
    fun ⟨hdirectory, other, hother, hlocate⟩ => ⟨hdirectory, other, hmore other hother, hlocate⟩⟩

theorem adds_makeDirectory (h : disk.makeDirectory path mode = .ok after) (hpath : path ∈ paths) :
    Adds mode paths disk after := by
  obtain ⟨place, hlocate, hnode, rfl⟩ := exists_of_makeDirectory h
  have hne : place ≠ [] := by
    rintro rfl
    simp at hnode
  have hgrows : Grows disk (disk.put place (.directory mode)) :=
    grows_put (by simp [hnode]) (by simp [hnode])
  refine ⟨hgrows, fun other node hother => ?_, fun other hnone => ?_⟩
  · rw [node?_put hne, if_neg, hother]
    rintro rfl
    simp [hnode] at hother
  · by_cases hother : other = place
    · subst hother
      exact .inr ⟨by rw [node?_put hne, if_pos rfl], path, hpath, hgrows.locate hlocate⟩
    · exact .inl (by rw [node?_put hne, if_neg hother, hnone])

theorem adds_makeDirectoriesOf (disk : Disk) (mode : Nat) (paths : List String) :
    Adds mode paths disk (disk.makeDirectoriesOf mode paths).2 := by
  induction paths generalizing disk with
  | nil => exact adds_refl mode [] disk
  | cons path parents ih =>
      have hparents := (ih disk).mono fun other hother => List.mem_cons_of_mem path hother
      have hmaking := disk.making mode path parents
      generalize disk.makeDirectoriesOf mode (path :: parents) = outcome at hmaking ⊢
      cases hmaking with
      | made hmake => exact adds_makeDirectory hmake List.mem_cons_self
      | kept => exact adds_refl mode _ disk
      | madeInside _ hmiddle hmake =>
          rw [hmiddle] at hparents
          exact hparents.trans (adds_makeDirectory hmake List.mem_cons_self)
      | keptInside _ hmiddle =>
          rw [hmiddle] at hparents
          exact hparents

end Disk

end RegistryFront.Files
