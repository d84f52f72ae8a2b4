import RegistryFront.Proofs.Files.Rooted
import RegistryFront.Proofs.Files.Sparing

/-!
# Writing over what is there

A file that is written may be new, or have been there with any content and mode.  Either way all paths
lead where they did before, and nothing is different anywhere else.
-/

namespace RegistryFront.Files

namespace Disk

/-! ## Paths that exist -/

theorem pathExists_iff {disk : Disk} {path : String} :
    disk.pathExists path = true ↔ ∃ place node, disk.locate true path = .ok place ∧
      disk.node? place = some node ∧
      ∀ mode content, node = .file mode content → Path.endsInSlash path = false := by
  unfold pathExists find
  cases disk.locate true path with
  | error => simp [bind, Except.bind, Except.isOk, Except.toBool]
  | ok place =>
      rcases hnode : disk.node? place with _ | (_ | _ | _)
      · simp [bind, Except.bind, hnode, Except.isOk, Except.toBool]
      · cases Path.endsInSlash path <;>
          simp [bind, Except.bind, hnode, Except.isOk, Except.toBool]
      · simp [bind, Except.bind, hnode, Except.isOk, Except.toBool]
      · simp [bind, Except.bind, hnode, Except.isOk, Except.toBool]

/-! ## Where paths lead -/

/-- Nothing was taken away, and no directory is new. -/
structure Refills (before after : Disk) : Prop where
  grows : Grows before after
  directory : ∀ place, after.DirectoryAt place → before.DirectoryAt place

instance : IsPreorder Disk Refills where
  refl disk := ⟨refl disk, fun _ => id⟩
  trans _ _ _ h h' := ⟨IsTrans.trans _ _ _ h.grows h'.grows,
    fun place hplace => h.directory place (h'.directory place hplace)⟩

section

variable {before after : Disk} {followLast : Bool} {place : Place} {path : String}

theorem Refills.leads (h : Refills before after) {links : Nat} {here : Place}
    {names : List String} (hleads : after.Leads followLast links here names place) :
    before.Leads followLast links here names place := by
  have hlink {at_ target} : after.node? at_ = some (.link target) →
      before.node? at_ = some (.link target) := (h.grows.link _ _).mp
  -- a name that has no directory and no link behind it may stand last, there or not
  have hlast {links here name} (hname : IsName name) (hdirectory : ¬ after.DirectoryAt (here ++ [name]))
      (hnolink : ∀ target, after.node? (here ++ [name]) ≠ some (.link target)) :
      before.Leads followLast links here [name] (here ++ [name]) := by
    cases hnode : before.node? (here ++ [name]) with
    | none => exact .missing hname hnode
    | some node =>
        cases node with
        | file => exact .file hname hnode
        | directory => exact absurd (h.grows.directoryAt ⟨_, hnode⟩) hdirectory
        | link target => exact absurd ((h.grows.link _ _).mpr hnode) (hnolink target)
  induction hleads with
  | arrived => exact .arrived
  | stay _ ih => exact .stay ih
  | up _ ih => exact .up ih
  | missing hname hnode =>
      exact hlast hname (fun ⟨_, hdirectory⟩ => by simp [hnode] at hdirectory) (by simp [hnode])
  | file hname hnode =>
      exact hlast hname (fun ⟨_, hdirectory⟩ => by simp [hnode] at hdirectory) (by simp [hnode])
  | directory hname hnode _ ih =>
      obtain ⟨mode, hbefore⟩ := h.directory _ ⟨_, hnode⟩
      exact .directory hname hbefore ih
  | link hname hnode hlast => exact .link hname (hlink hnode) hlast
  | follow hname hnode hfollow _ ih => exact .follow hname (hlink hnode) hfollow ih

theorem Refills.locate_iff (h : Refills before after) :
    after.locate followLast path = .ok place ↔ before.locate followLast path = .ok place := by
  refine ⟨fun hlocate => ?_, h.grows.locate⟩
  obtain ⟨hsayable, hleads⟩ := locate_eq_ok_iff.mp hlocate
  refine locate_eq_ok_iff.mpr ⟨hsayable, ?_⟩
  have hback := h.leads hleads
  rwa [start, h.grows.base] at hback

theorem refills_put_file {disk : Disk} {mode : Nat} {content : Bytes}
    (hdirectory : ∀ mode, disk.node? place ≠ some (.directory mode))
    (hlink : ∀ target, disk.node? place ≠ some (.link target)) :
    Refills disk (disk.put place (.file mode content)) := by
  have hne : place ≠ [] := by
    rintro rfl
    exact hdirectory _ (node?_nil disk)
  refine ⟨grows_put hdirectory hlink, fun other ⟨kept, hother⟩ => ?_⟩
  rw [node?_put hne] at hother
  split at hother
  · cases hother
  · exact ⟨kept, hother⟩

end

/-! ## Files that were filled -/

structure Fills (path : String) (place : Place) (before after : Disk) : Prop where
  slash : Path.endsInSlash path = false
  locate : before.locate true path = .ok place
  file : ∃ mode content, after.node? place = some (.file mode content)
  same : ∀ other, other ≠ place → after.node? other = before.node? other
  refills : Refills before after

section

variable {disk middle after : Disk} {path : String} {place : Place} {mode : Nat} {content : Bytes}

theorem endsInSlash_of_write (hwrite : disk.write path mode content = .ok after) :
    Path.endsInSlash path = false := by
  by_contra hslash
  rw [Bool.not_eq_false] at hslash
  unfold write at hwrite
  cases hlocate : disk.locate true path with
  | error => rw [hlocate] at hwrite; cases hwrite
  | ok place =>
      rw [hlocate] at hwrite
      dsimp only [bind, Except.bind] at hwrite
      split at hwrite <;> simp [hslash] at hwrite

theorem Rooted.fills_write (h : disk.Rooted) (hwrite : disk.write path mode content = .ok after) :
    ∃ place kept, Fills path place disk after ∧ after.node? place = some (.file kept content) := by
  have hslash := endsInSlash_of_write hwrite
  obtain ⟨place, kept, hlocate, hnode, rfl⟩ := exists_of_write hwrite
  have hne : place ≠ [] := by
    rintro rfl
    exact hnode _ (node?_nil disk)
  have hlink : ∀ target, disk.node? place ≠ some (.link target) := by
    rcases h.locate hlocate with ⟨mode, hdirectory⟩ | hhangs
    · exact absurd hdirectory (hnode mode)
    · exact hhangs.link rfl
  have hfile : (disk.put place (.file kept content)).node? place = some (.file kept content) := by
    rw [node?_put hne, if_pos rfl]
  refine ⟨place, kept, ⟨hslash, hlocate, ⟨_, _, hfile⟩, fun other hother => ?_,
    refills_put_file hnode hlink⟩, hfile⟩
  rw [node?_put hne, if_neg hother]

theorem Fills.setMode {kept : Nat} (h : Fills path place disk middle)
    (hnode : middle.node? place = some (.file kept content))
    (hset : middle.setMode path mode = .ok after) :
    Fills path place disk after ∧ after.node? place = some (.file mode content) := by
  have hlocate := h.refills.locate_iff.mpr h.locate
  have hne : place ≠ [] := by
    rintro rfl
    simp at hnode
  unfold Disk.setMode at hset
  rw [(find_eq_ok_iff h.slash).mpr ⟨hlocate, hnode⟩] at hset
  cases hset
  have hfile : (middle.put place (.file mode content)).node? place = some (.file mode content) := by
    rw [node?_put hne, if_pos rfl]
  refine ⟨⟨h.slash, h.locate, ⟨_, _, hfile⟩, fun other hother => ?_, ?_⟩, hfile⟩
  · rw [node?_put hne, if_neg hother, h.same other hother]
  · exact IsTrans.trans _ _ _ h.refills (refills_put_file (by simp [hnode]) (by simp [hnode]))

/-- A path that exists then existed before, or leads to the file that was filled. -/
theorem Fills.pathExists_iff (h : Fills path place disk after) {other : String} :
    after.pathExists other = true ↔ disk.pathExists other = true ∨
      disk.locate true other = .ok place ∧ Path.endsInSlash other = false := by
  obtain ⟨mode, content, hfile⟩ := h.file
  simp only [Disk.pathExists_iff, h.refills.locate_iff]
  constructor
  · rintro ⟨found, node, hlocate, hnode, hslash⟩
    by_cases hplace : found = place
    · subst hplace
      exact .inr ⟨hlocate, hslash mode content (Option.some.inj (hnode.symm.trans hfile))⟩
    · exact .inl ⟨found, node, hlocate, (h.same found hplace) ▸ hnode, hslash⟩
  · rintro (⟨found, node, hlocate, hnode, hslash⟩ | ⟨hlocate, hslash⟩)
    · by_cases hplace : found = place
      · subst hplace
        refine ⟨found, _, hlocate, hfile, fun _ _ _ => ?_⟩
        -- what was there before a file was written there is a file or nothing
        cases node with
        | file => exact hslash _ _ rfl
        | directory kept =>
            obtain ⟨kept, hdirectory⟩ := h.refills.grows.directory _ _ hnode
            simp [hfile] at hdirectory
        | link target =>
            have hlink := (h.refills.grows.link _ _).mpr hnode
            simp [hfile] at hlink
      · exact ⟨found, node, hlocate, (h.same found hplace).symm ▸ hnode, hslash⟩
    · exact ⟨place, _, hlocate, hfile, fun _ _ _ => hslash⟩

theorem Fills.pathExists_self (h : Fills path place disk after) : after.pathExists path = true :=
  h.pathExists_iff.mpr (.inr ⟨h.locate, h.slash⟩)

/-! ## Files that can be filled -/

structure Writable (path : String) (place : Place) (disk : Disk) : Prop where
  slash : Path.endsInSlash path = false
  locate : disk.locate true path = .ok place
  node : ¬ disk.DirectoryAt place

theorem Refills.writable (h : Refills disk after) (hwritable : Writable path place disk) :
    Writable path place after :=
  ⟨hwritable.slash, h.grows.locate hwritable.locate, fun hafter =>
    hwritable.node (h.directory place hafter)⟩

theorem Writable.exists_write (h : Writable path place disk) (mode : Nat) (content : Bytes) :
    ∃ after, disk.write path mode content = .ok after := by
  unfold write
  rw [h.locate]
  dsimp only [bind, Except.bind]
  rcases hfound : disk.node? place with _ | (_ | _ | _)
  · exact ⟨_, by simp [h.slash]; rfl⟩
  · exact ⟨_, by simp [h.slash]; rfl⟩
  · exact absurd ⟨_, hfound⟩ h.node
  · exact ⟨_, by simp [h.slash]; rfl⟩

theorem write_of_directoryAt (hlocate : disk.locate true path = .ok place)
    (hdirectory : disk.DirectoryAt place) (mode : Nat) (content : Bytes) :
    disk.write path mode content = .error (.os .isDirectory) := by
  obtain ⟨kept, hnode⟩ := hdirectory
  unfold write
  rw [hlocate]
  dsimp only [bind, Except.bind]
  rw [hnode]

theorem Fills.exists_setMode (h : Fills path place disk after) (mode : Nat) :
    ∃ moded, after.setMode path mode = .ok moded := by
  obtain ⟨kept, content, hfile⟩ := h.file
  have hfind := (find_eq_ok_iff h.slash).mpr ⟨h.refills.locate_iff.mpr h.locate, hfile⟩
  exact ⟨_, by rw [Disk.setMode, hfind]; rfl⟩

end

end Disk

end RegistryFront.Files
