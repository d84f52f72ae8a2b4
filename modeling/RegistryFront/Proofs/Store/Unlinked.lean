import RegistryFront.Proofs.Files.Rooted
import RegistryFront.Proofs.Files.Sparing
import RegistryFront.Proofs.Store.Deeds
import RegistryFront.Proofs.Store.Record

/-!
# Files that are no links

The store makes no links.  Where the three files of a domain are none, a certificate that was saved is
found, whatever the domain's name and wherever it leads; and it is found again when the store is
opened anew.
-/

namespace RegistryFront

namespace Files.Disk

private theorem last_cases {first name : String} {rest front : List String}
    (h : first :: rest = front ++ [name]) :
    (first = name ∧ rest = []) ∨ ∃ others, rest = others ++ [name] := by
  rcases List.cons_eq_append_iff.mp h with ⟨-, hlast⟩ | ⟨others, -, hrest⟩
  · exact .inl ⟨(List.cons.inj hlast).1.symm, (List.cons.inj hlast).2.symm⟩
  · exact .inr ⟨others, hrest⟩

theorem Leads.last_name {disk : Disk} {links : Nat} {here place : Place} {names : List String}
    (h : disk.Leads true links here names place) {front : List String} {name : String}
    (hnames : names = front ++ [name]) (hdot : name ≠ ".") (hup : name ≠ "..") :
    ∃ middle, disk.Leads false links here names (middle ++ [name]) ∧
      (place = middle ++ [name] ∨ ∃ target, disk.node? (middle ++ [name]) = some (.link target)) := by
  induction h generalizing front with
  | arrived => simp at hnames
  | stay hrest ih =>
      rcases last_cases hnames with ⟨rfl, -⟩ | ⟨others, hothers⟩
      · exact absurd rfl hdot
      · obtain ⟨middle, hleads, hplace⟩ := ih hothers
        exact ⟨middle, .stay hleads, hplace⟩
  | up hrest ih =>
      rcases last_cases hnames with ⟨rfl, -⟩ | ⟨others, hothers⟩
      · exact absurd rfl hup
      · obtain ⟨middle, hleads, hplace⟩ := ih hothers
        exact ⟨middle, .up hleads, hplace⟩
  | @missing _ here _ hname hnode =>
      rcases last_cases hnames with ⟨rfl, -⟩ | ⟨others, hothers⟩
      · exact ⟨here, .missing hname hnode, .inl rfl⟩
      · simp at hothers
  | @file _ here _ _ _ hname hnode =>
      rcases last_cases hnames with ⟨rfl, -⟩ | ⟨others, hothers⟩
      · exact ⟨here, .file hname hnode, .inl rfl⟩
      · simp at hothers
  | @directory _ here _ _ _ _ hname hnode hrest ih =>
      rcases last_cases hnames with ⟨rfl, rfl⟩ | ⟨others, hothers⟩
      · cases hrest
        exact ⟨here, .directory hname hnode .arrived, .inl rfl⟩
      · obtain ⟨middle, hleads, hplace⟩ := ih hothers
        exact ⟨middle, .directory hname hnode hleads, hplace⟩
  | link hname hnode hlast => simp at hlast
  | @follow _ here _ rest _ target hname hnode hfollow hrest ih =>
      rcases last_cases hnames with ⟨rfl, rfl⟩ | ⟨others, rfl⟩
      · exact ⟨here, .link hname hnode rfl, .inr ⟨target, hnode⟩⟩
      · obtain ⟨middle, hleads, hplace⟩ := ih (List.append_assoc ..).symm
        exact ⟨middle, .follow hname hnode (.inl (by simp)) hleads, hplace⟩

end Files.Disk

namespace Store

open Files

variable {store : Store} {root : Place}

/-- Where no links are made, the tree of the store stays one. -/
theorem Keeps.of_extends {before after : Disk} (h : store.Keeps root before)
    (hextends : Disk.Extends before after) : store.Keeps root after :=
  ⟨h.tree.of_grows hextends.grows hextends.rooted, hextends.grows.below h.below⟩

/-- None of the three files of the domain is a link. -/
def Unlinked (store : Store) (disk : Disk) (domain : String) : Prop :=
  ∀ part place, disk.locate false (store.partPath domain part) = .ok place →
    ∀ target, disk.node? place ≠ some (.link target)

section

variable {disk after : Disk} {domain : String}

theorem Keeps.unlinked (h : store.Keeps root disk) (hdomain : Inner domain) :
    store.Unlinked disk domain := by
  intro part place hlocate target
  have hnames := h.names hdomain part
  obtain ⟨-, harrives⟩ :=
    h.tree.arrives_of_locate hnames.below hnames.inner (.inl hnames.ne_nil) hlocate
  rw [harrives.place_eq]
  exact h.tree.link _ target

theorem partPath_parts (store : Store) (domain : String) (part : Part) :
    Path.parts (store.partPath domain part) =
      Path.parts (store.domainPath domain) ++ [part.name] := by
  have hname : Path.parts part.name = [part.name] := by
    cases part <;> exact Path.parts_of_isPart ⟨by decide, by decide⟩
  rw [partPath, Path.parts_join _ (by cases part <;> decide), hname]

theorem endsInSlash_partPath (store : Store) (domain : String) (part : Part) :
    Path.endsInSlash (store.partPath domain part) = false := by
  rw [partPath, Path.endsInSlash_join _ (by cases part <;> decide)]
  cases part <;> decide

theorem Unlinked.getLast? (h : store.Unlinked disk domain) {part : Part} {place : Place}
    (hlocate : disk.locate true (store.partPath domain part) = .ok place) :
    place.getLast? = some part.name := by
  obtain ⟨hsayable, hleads⟩ := Disk.locate_eq_ok_iff.mp hlocate
  obtain ⟨middle, hleads', hplace⟩ := hleads.last_name (store.partPath_parts domain part)
    (by cases part <;> decide) (by cases part <;> decide)
  have hlocate' := Disk.locate_eq_ok_iff.mpr ⟨hsayable, hleads'⟩
  rcases hplace with rfl | ⟨target, hlink⟩
  · simp
  · exact absurd hlink (h part _ hlocate' target)

theorem sight_of_write (part : Part) {before last : Disk} {mode : Nat} {content : Bytes}
    (hgrows : Disk.Grows before last) (hunlinked : store.Unlinked last domain)
    (hwrite : before.write (store.partPath domain part) mode content = .ok after) :
    ∃ place, last.locate true (store.partPath domain part) = .ok place ∧
      after.sight place = some (some content) ∧
      ∀ other otherPlace, other ≠ part →
        last.locate true (store.partPath domain other) = .ok otherPlace →
        after.sight otherPlace = before.sight otherPlace := by
  obtain ⟨place, hlocate, hseen, hothers⟩ := Disk.sight_write hwrite
  have hlast := hgrows.locate hlocate
  refine ⟨place, hlast, hseen, fun other otherPlace hne hother => hothers otherPlace ?_⟩
  rintro rfl
  have hnames := (hunlinked.getLast? hother).symm.trans (hunlinked.getLast? hlast)
  exact hne (Part.name_injective (Option.some.inj hnames))

theorem Unlinked.shelf_of_stops (hunlinked : store.Unlinked after domain) (hrooted : disk.Rooted)
    {certificate : StoredCertificate}
    (hstops : Stops disk (store.saveActions domain certificate) 5 false after) :
    store.shelf after domain = Shelf.ofTexts certificate.text := by
  rcases hstops with _ | _ | _ | ⟨hmake, hstops⟩
  rcases hstops with _ | _ | _ | ⟨hchain, hstops⟩
  rcases hstops with _ | _ | _ | ⟨hkey, hstops⟩
  rcases hstops with _ | _ | _ | ⟨hmode, hstops⟩
  rcases hstops with _ | _ | _ | ⟨hrecord, hstops⟩
  cases hstops
  rename_i made chained keyed moded
  have extends_of {before later : Disk} {action : Action} (h : before.Rooted)
      (happly : action.apply before = (.ok (), later)) : Disk.Extends before later := by
    have hextends := h.extends_apply action
    rwa [happly] at hextends
  have hmade := extends_of hrooted hmake
  have hchained := extends_of hmade.rooted hchain
  have hkeyed := extends_of hchained.rooted hkey
  have hmoded := extends_of hkeyed.rooted hmode
  have hafter := extends_of hmoded.rooted hrecord
  have hfromMode := hmoded.trans hafter
  have hfromKey := hkeyed.trans hfromMode
  obtain ⟨chain, hchainAt, hchainSeen, -⟩ := sight_of_write .chain
    (hchained.trans hfromKey).grows hunlinked (ok_of_keeping hchain)
  obtain ⟨key, hkeyAt, hkeySeen, hkeyOthers⟩ := sight_of_write .key
    hfromKey.grows hunlinked (ok_of_keeping hkey)
  obtain ⟨record, hrecordAt, hrecordSeen, hrecordOthers⟩ := sight_of_write .record
    hafter.grows hunlinked (ok_of_keeping hrecord)
  -- each file is seen as it was written, since the later writes go to other places
  have hsame := Disk.sight_setMode (ok_of_keeping hmode)
  have hseen {part : Part} {place : Place} {text : String}
      (hlocate : after.locate true (store.partPath domain part) = .ok place)
      (hsight : after.sight place = some (some (Text.Utf8.encode text))) :
      store.shelf after domain part = some (some (Text.Utf8.encode text)) :=
    Disk.view_of_locate (store.endsInSlash_partPath domain part) hlocate hsight
  funext part
  cases part with
  | chain =>
      refine hseen hchainAt ?_
      rw [hrecordOthers .chain chain (by decide) hchainAt, hsame,
        hkeyOthers .chain chain (by decide) hchainAt, hchainSeen]
      rfl
  | key =>
      refine hseen hkeyAt ?_
      rw [hrecordOthers .key key (by decide) hkeyAt, hsame, hkeySeen]
      rfl
  | record =>
      refine hseen hrecordAt ?_
      rw [hrecordSeen]
      rfl

end

section

variable {drive after : Drive} {domain : String} {certificate : StoredCertificate}

theorem Unlinked.load_of_save (hunlinked : store.Unlinked after.disk domain)
    (hrooted : drive.disk.Rooted)
    (hsave : store.save drive domain certificate = (.ok (), after)) :
    store.load after.disk domain = .ok (some certificate) := by
  have hstops := Drive.stops_of_performAll (ofFiles_eq_ok hsave)
  rw [load_eq, hunlinked.shelf_of_stops hrooted hstops, Shelf.load_ofTexts]
  simp [StoredCertificate.text, Record.read_write]

end

/-! ## Openings -/

theorem Keeps.spares_makeDirectories {disk after : Disk} (h : store.Keeps root disk)
    {path name : String} (hlies : store.Lies path [name]) (hdot : name ≠ ".") (hup : name ≠ "..")
    {mode : Nat} (hmake : disk.makeDirectories path mode = (.ok (), after)) :
    store.Keeps root after ∧ Disk.Spares disk after ∧ after.DirectoryAt (root ++ [name]) := by
  have hbelow := h.below_of_lies hlies
  have hundot : Disk.undot [name] = [name] := Disk.undot_cons hdot []
  have hinner : ".." ∉ [name] := by simpa using Ne.symm hup
  have hdevelops := h.tree.develops_makeDirectories hbelow hinner (by simp [hundot]) mode
  have hspares := disk.spares_makeDirectoriesOf mode (Disk.withParents path)
  have hdirectory := h.tree.directoryAt_of_makeDirectories hbelow hinner (by simp [hundot]) hmake
  rw [hmake] at hdevelops
  rw [← Disk.makeDirectories, hmake] at hspares
  rw [hundot] at hdirectory
  exact ⟨h.develops hdevelops, hspares, hdirectory⟩

theorem Keeps.spares_setMode {disk after : Disk} (h : store.Keeps root disk) {path : String}
    {names : List String} (hlies : store.Lies path names) (hinner : ".." ∉ names)
    (hdirectory : disk.DirectoryAt (root ++ Disk.undot names)) {mode : Nat}
    (hset : disk.setMode path mode = .ok after) :
    store.Keeps root after ∧ Disk.Spares disk after := by
  refine ⟨h.develops (h.tree.develops_setMode hset), Disk.spares_setMode hset fun place hlocate => ?_⟩
  obtain ⟨-, harrives⟩ :=
    h.tree.arrives_of_locate (h.below_of_lies hlies) hinner (.inr rfl) hlocate
  rw [harrives.place_eq]
  exact hdirectory

theorem Keeps.spares_of_openAt {drive after : Drive} {opened : Store}
    (h : store.Keeps root drive.disk)
    (hopen : openAt store.basePath drive = (.ok opened, after)) :
    Disk.Spares drive.disk after.disk := by
  have hstops := Drive.stops_of_performAll (openAt_eq_ok hopen).2
  generalize drive.disk = disk at h hstops
  generalize after.disk = last at hstops
  rcases hstops with _ | _ | _ | ⟨haccounts, hstops⟩
  rcases hstops with _ | _ | _ | ⟨hdomains, hstops⟩
  rcases hstops with _ | _ | _ | ⟨hbaseMode, hstops⟩
  rcases hstops with _ | _ | _ | ⟨haccountsMode, hstops⟩
  rcases hstops with _ | _ | _ | ⟨hdomainsMode, hstops⟩
  cases hstops
  obtain ⟨h₁, hspares₁, haccountsAt⟩ :=
    h.spares_makeDirectories store.lies_accountsPath (by decide) (by decide) haccounts
  obtain ⟨h₂, hspares₂, hdomainsAt⟩ :=
    h₁.spares_makeDirectories store.lies_domainsPath (by decide) (by decide) hdomains
  obtain ⟨h₃, hspares₃⟩ := h₂.spares_setMode store.lies_basePath (by decide)
    (by simpa using h₂.tree.directory) (ok_of_keeping hbaseMode)
  obtain ⟨h₄, hspares₄⟩ := h₃.spares_setMode store.lies_accountsPath (by decide)
    (hspares₃.grows.directoryAt (hspares₂.grows.directoryAt haccountsAt))
    (ok_of_keeping haccountsMode)
  obtain ⟨-, hspares₅⟩ := h₄.spares_setMode store.lies_domainsPath (by decide)
    (hspares₄.grows.directoryAt (hspares₃.grows.directoryAt hdomainsAt))
    (ok_of_keeping hdomainsMode)
  exact IsTrans.trans _ _ _ hspares₁ (IsTrans.trans _ _ _ hspares₂
    (IsTrans.trans _ _ _ hspares₃ (IsTrans.trans _ _ _ hspares₄ hspares₅)))

theorem load_of_spares {disk after : Disk} {domain : String} {found : StoredCertificate}
    (hspares : Disk.Spares disk after) (hload : store.load disk domain = .ok (some found)) :
    store.load after domain = .ok (some found) := by
  have hshelf : store.shelf after domain = store.shelf disk domain := by
    funext part
    cases hview : store.shelf disk domain part with
    | some content =>
        exact hspares.view_eq (store.endsInSlash_partPath domain part) hview
    | none =>
        -- without one of the files nothing would have been found
        rw [load_eq, Shelf.load] at hload
        cases part <;> simp [hview] at hload
  rwa [load_eq, hshelf, ← load_eq]

/-! ### A store that has been opened -/

theorem rooted_emptyAcme : emptyAcme.Rooted := Disk.rooted_of_single (.inl rfl)

theorem extends_openAcme : Disk.Extends emptyAcme (openAcme []) := by
  have hopened : ((Drive.ofDisk emptyAcme).performAll acme.openActions).2 = .ofDisk (openAcme []) :=
    performAll_of_openAt openAt_acme
  have hempty : (Drive.ofDisk emptyAcme).disk.Rooted := rooted_emptyAcme
  have hextends := Drive.extends_performAll hempty acme.openActions
  rwa [hopened] at hextends

theorem keeps_openAcme : acme.Keeps ["acme"] (openAcme []) :=
  emptyAt_acme.keeps.of_extends extends_openAcme

end Store

end RegistryFront
