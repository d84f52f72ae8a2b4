import RegistryFront.Proofs.Files.Effects
import RegistryFront.Proofs.Files.Interruption

/-!
# Disks on which everything lies in a directory

On such a disk a path leads to a directory or to a name in one, and no action takes anything away.
It stays one through whatever is done.
-/

namespace RegistryFront.Files

namespace Disk

/-- Every node lies in a directory, and the working directory is one. -/
structure Rooted (disk : Disk) : Prop where
  base : disk.DirectoryAt disk.base
  parent : ∀ place name, disk.node? (place ++ [name]) ≠ none → disk.DirectoryAt place

theorem rooted_of_single {name : String} {mode : Nat} {base : Place}
    (hbase : base = [] ∨ base = [name]) : Rooted ⟨[([name], .directory mode)], base⟩ where
  base := by
    rcases hbase with rfl | rfl
    · exact ⟨0o755, rfl⟩
    · exact ⟨mode, by simp [node?]⟩
  parent place other hnode := by
    cases place with
    | nil => exact ⟨0o755, rfl⟩
    | cons first rest => exact absurd (List.lookup_eq_none_iff.mpr (by simp)) hnode

theorem Tree.of_grows {before after : Disk} {root : Place} (h : before.Tree root)
    (hgrows : Grows before after) (hrooted : after.Rooted) : after.Tree root where
  directory := hgrows.directoryAt h.directory
  parent names name hnode := hrooted.parent (root ++ names) name (by rwa [List.append_assoc])
  link names target := by
    rw [Ne, hgrows.link]
    exact h.link names target

section

variable {disk after : Disk} {followLast : Bool} {links : Nat} {here place : Place}
  {names : List String}

theorem Rooted.start (h : disk.Rooted) (path : String) : disk.DirectoryAt (disk.start path) := by
  unfold Disk.start
  split
  · exact ⟨_, node?_nil disk⟩
  · exact h.base

theorem Rooted.dropLast (h : disk.Rooted) (hhere : disk.DirectoryAt here) :
    disk.DirectoryAt here.dropLast := by
  rcases List.eq_nil_or_concat here with rfl | ⟨front, name, rfl⟩
  · exact hhere
  · rw [List.concat_eq_append] at hhere ⊢
    obtain ⟨mode, hmode⟩ := hhere
    rw [List.dropLast_concat]
    exact h.parent front name (by simp [hmode])

structure Hangs (disk : Disk) (followLast : Bool) (place : Place) : Prop where
  parent : ∃ front name, place = front ++ [name] ∧ disk.DirectoryAt front
  link : followLast = true → ∀ target, disk.node? place ≠ some (.link target)

theorem Rooted.leads (h : disk.Rooted) (hleads : disk.Leads followLast links here names place)
    (hhere : disk.DirectoryAt here) : disk.DirectoryAt place ∨ disk.Hangs followLast place := by
  induction hleads with
  | arrived => exact .inl hhere
  | stay _ ih => exact ih hhere
  | up _ ih => exact ih (h.dropLast hhere)
  | missing hname hnode => exact .inr ⟨⟨_, _, rfl, hhere⟩, fun _ => by simp [hnode]⟩
  | file hname hnode => exact .inr ⟨⟨_, _, rfl, hhere⟩, fun _ => by simp [hnode]⟩
  | directory hname hnode _ ih => exact ih ⟨_, hnode⟩
  | link hname hnode hlast => exact .inr ⟨⟨_, _, rfl, hhere⟩, fun hfollow => by simp [hlast] at hfollow⟩
  | follow hname hnode hfollow hrest ih =>
      refine ih ?_
      split
      · exact ⟨_, node?_nil disk⟩
      · exact hhere

theorem Rooted.locate (h : disk.Rooted) {path : String}
    (hlocate : disk.locate followLast path = .ok place) :
    disk.DirectoryAt place ∨ disk.Hangs followLast place :=
  h.leads (locate_eq_ok_iff.mp hlocate).2 (h.start path)

/-! ## Changes -/

structure Extends (before after : Disk) : Prop where
  grows : Grows before after
  rooted : after.Rooted

theorem Extends.trans {first second third : Disk} (h : Extends first second)
    (h' : Extends second third) : Extends first third :=
  ⟨IsTrans.trans _ _ _ h.grows h'.grows, h'.rooted⟩

theorem Rooted.extends_refl (h : disk.Rooted) : Extends disk disk := ⟨refl disk, h⟩

theorem Rooted.extends_put (h : disk.Rooted) {node : Node} (hgrows : Grows disk (disk.put place node))
    (hparent : ∀ front name, place = front ++ [name] → disk.DirectoryAt front) :
    Extends disk (disk.put place node) := by
  refine ⟨hgrows, ⟨?_, fun front name hnode => ?_⟩⟩
  · rw [base_put]
    exact hgrows.directoryAt h.base
  · by_cases hplace : front ++ [name] = place
    · exact hgrows.directoryAt (hparent front name hplace.symm)
    · refine hgrows.directoryAt (h.parent front name ?_)
      by_cases hnil : place = []
      · rwa [hnil, node?_put_nil] at hnode
      · rwa [node?_put hnil, if_neg hplace] at hnode

theorem Hangs.directoryAt (h : disk.Hangs followLast place) {front : Place} {name : String}
    (hplace : place = front ++ [name]) : disk.DirectoryAt front := by
  obtain ⟨⟨others, last, rfl, hothers⟩, -⟩ := h
  obtain ⟨rfl, -⟩ := List.append_inj' hplace rfl
  exact hothers

theorem Rooted.extends_write (h : disk.Rooted) {path : String} {mode : Nat} {content : Bytes}
    (hwrite : disk.write path mode content = .ok after) : Extends disk after := by
  obtain ⟨place, kept, hlocate, hnode, rfl⟩ := exists_of_write hwrite
  rcases h.locate hlocate with ⟨mode, hdirectory⟩ | hhangs
  · exact absurd hdirectory (hnode mode)
  · exact h.extends_put (grows_put hnode (hhangs.link rfl)) fun _ _ => hhangs.directoryAt

theorem Rooted.extends_makeDirectory (h : disk.Rooted) {path : String} {mode : Nat}
    (hmake : disk.makeDirectory path mode = .ok after) : Extends disk after := by
  obtain ⟨place, hlocate, hnode, rfl⟩ := exists_of_makeDirectory hmake
  rcases h.locate hlocate with ⟨mode, hdirectory⟩ | hhangs
  · simp [hnode] at hdirectory
  · exact h.extends_put (grows_put (by simp [hnode]) (by simp [hnode])) fun _ _ =>
      hhangs.directoryAt

theorem Rooted.extends_makeDirectoriesOf (h : disk.Rooted) (mode : Nat) (paths : List String) :
    Extends disk (disk.makeDirectoriesOf mode paths).2 := by
  induction paths generalizing disk with
  | nil => exact h.extends_refl
  | cons path parents ih =>
      have hparents := ih h
      have hmaking := disk.making mode path parents
      generalize disk.makeDirectoriesOf mode (path :: parents) = outcome at hmaking ⊢
      cases hmaking with
      | made hmake => exact h.extends_makeDirectory hmake
      | kept => exact h.extends_refl
      | madeInside _ hmiddle hmake =>
          rw [hmiddle] at hparents
          exact hparents.trans (hparents.rooted.extends_makeDirectory hmake)
      | keptInside _ hmiddle =>
          rw [hmiddle] at hparents
          exact hparents

theorem Rooted.extends_setMode (h : disk.Rooted) {path : String} {mode : Nat}
    (hset : disk.setMode path mode = .ok after) : Extends disk after := by
  obtain rfl | ⟨place, node, -, hnode, hgrows, rfl⟩ := exists_of_setMode hset
  · exact h.extends_refl
  · refine h.extends_put hgrows ?_
    rintro front name rfl
    exact h.parent front name (by simp [hnode])

theorem Rooted.extends_apply (h : disk.Rooted) (action : Action) :
    Extends disk (action.apply disk).2 := by
  cases action with
  | makeDirectories path mode => exact h.extends_makeDirectoriesOf mode (withParents path)
  | write path mode content =>
      simp only [Action.apply]
      cases hwrite : disk.write path mode content with
      | error => exact h.extends_refl
      | ok => exact h.extends_write hwrite
  | setMode path mode =>
      simp only [Action.apply]
      cases hset : disk.setMode path mode with
      | error => exact h.extends_refl
      | ok => exact h.extends_setMode hset

theorem Rooted.extends_applyStruck (h : disk.Rooted) (action : Action) (mishap : Option Mishap) :
    Extends disk (action.applyStruck disk mishap).2 := by
  cases mishap with
  | none => exact h.extends_apply action
  | some mishap =>
      cases mishap with
      | refused => exact h.extends_refl
      | emptied =>
          cases action with
          | write path mode content =>
              simp only [Action.applyStruck]
              cases hwrite : disk.write path mode [] with
              | error => exact h.extends_refl
              | ok => exact h.extends_write hwrite
          | makeDirectories => exact h.extends_refl
          | setMode => exact h.extends_refl

end

end Disk

theorem Drive.extends_performAll {drive : Drive} (h : drive.disk.Rooted) (actions : List Action) :
    Disk.Extends drive.disk (drive.performAll actions).2.disk := by
  induction actions generalizing drive with
  | nil => exact h.extends_refl
  | cons action rest ih =>
      have hfirst : Disk.Extends drive.disk (drive.perform action).2.disk :=
        h.extends_applyStruck action _
      rw [Drive.performAll]
      rcases hperform : drive.perform action with ⟨_ | _, after⟩ <;> rw [hperform] at hfirst
      · exact hfirst
      · exact hfirst.trans (ih hfirst.rooted)

end RegistryFront.Files
