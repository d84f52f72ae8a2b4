import Mathlib.Logic.Function.Basic
import RegistryFront.Proofs.Files.Effects
import RegistryFront.Store.Basic

/-!
# The three files of a domain

What the store finds for a domain depends on three files only.  A tree in which they lie stays one,
whatever is done by the store, and only writing one of them changes what is seen of it.
-/

namespace RegistryFront.Store

open Files

/-! ## The tree of a store -/

structure Lies (store : Store) (path : String) (names : List String) : Prop where
  parts : Path.parts path = Path.parts store.basePath ++ names
  absolute : Path.isAbsolute path = Path.isAbsolute store.basePath

theorem Lies.join {store : Store} {path : String} {names : List String} (h : store.Lies path names)
    (name : String) (hname : Path.isAbsolute name = false) :
    store.Lies (Path.join path name) (names ++ Path.parts name) :=
  ⟨by rw [Path.parts_join path hname, h.parts, List.append_assoc],
    by rw [Path.isAbsolute_join path hname, h.absolute]⟩

theorem lies_basePath (store : Store) : store.Lies store.basePath [] := ⟨by simp, rfl⟩

/-- The store's directory is the root of a tree. -/
structure Keeps (store : Store) (root : Place) (disk : Disk) : Prop where
  tree : disk.Tree root
  below : disk.Below root store.basePath []

theorem Keeps.below_of_lies {store : Store} {root : Place} {disk : Disk} (h : store.Keeps root disk)
    {path : String} {names : List String} (hlies : store.Lies path names) :
    disk.Below root path names := by
  obtain ⟨front, hparts, hleads⟩ := h.below
  rw [List.append_nil] at hparts
  refine ⟨front, by rw [hlies.parts, hparts], ?_⟩
  rwa [Disk.start, hlies.absolute]

theorem Keeps.develops {store : Store} {root : Place} {before after : Disk}
    (h : store.Keeps root before) {touched : List String → Prop}
    (hdevelops : Disk.Develops root touched before after) : store.Keeps root after :=
  ⟨hdevelops.tree, hdevelops.grows.below h.below⟩

structure EmptyAt (store : Store) (root : Place) (disk : Disk) : Prop where
  found : ∃ mode, disk.find store.basePath = .ok (root, .directory mode)
  empty : ∀ names, names ≠ [] → disk.node? (root ++ names) = none

theorem EmptyAt.keeps {store : Store} {root : Place} {disk : Disk} (h : store.EmptyAt root disk) :
    store.Keeps root disk := by
  obtain ⟨⟨mode, hfind⟩, hempty⟩ := h
  obtain ⟨hlocate, hnode⟩ := Disk.locate_of_find hfind
  have hleads := (Disk.locate_eq_ok_iff.mp hlocate).2
  refine ⟨⟨⟨mode, hnode⟩, fun names name hthere => ?_, fun names target hlink => ?_⟩,
    Path.parts store.basePath, by simp, hleads⟩
  · exact absurd (hempty _ (by simp)) hthere
  · by_cases hnames : names = []
    · subst hnames
      rw [List.append_nil, hnode] at hlink
      cases hlink
    · rw [hempty names hnames] at hlink
      cases hlink

/-! ## The files -/

inductive Part where
  | chain
  | key
  | record
  deriving DecidableEq

def Part.name : Part → String
  | .chain => "cert.pem"
  | .key => "key.pem"
  | .record => "meta.json"

theorem Part.name_injective : Function.Injective Part.name := by
  intro part other h
  cases part <;> cases other <;> first | rfl | exact absurd h (by decide)

def partPath (store : Store) (domain : String) (part : Part) : String :=
  Path.join (store.domainPath domain) part.name

def partNames (domain : String) (part : Part) : List String :=
  "domains" :: (Path.parts domain ++ [part.name])

/-- A domain whose directory lies in the store.  Domains are host names, and every host name is such a
one; left out is what is no host name but a path out of the store, absolute or with `..` in it. -/
structure Inner (domain : String) : Prop where
  relative : Path.isAbsolute domain = false
  inside : ".." ∉ Path.parts domain

structure Plain (domain : String) : Prop extends Path.IsPart domain where
  ne_dot : domain ≠ "."
  ne_up : domain ≠ ".."

theorem Plain.parts {domain : String} (h : Plain domain) : Path.parts domain = [domain] :=
  Path.parts_of_isPart h.toIsPart

theorem Plain.inner {domain : String} (h : Plain domain) : Inner domain where
  relative := h.toIsPart.isAbsolute_eq_false
  inside := by simpa [h.parts] using Ne.symm h.ne_up

theorem lies_domainPath (store : Store) {domain : String} (h : Inner domain) :
    store.Lies (store.domainPath domain) ("domains" :: Path.parts domain) := by
  have hdomains := store.lies_basePath.join "domains" (by decide)
  have hparts : Path.parts "domains" = ["domains"] := Path.parts_of_isPart ⟨by decide, by decide⟩
  rw [hparts] at hdomains
  exact hdomains.join domain h.relative

theorem lies_partPath (store : Store) {domain : String} (h : Inner domain) (part : Part) :
    store.Lies (store.partPath domain part) (partNames domain part) := by
  have hparts : Path.parts part.name = [part.name] := by
    cases part <;> exact Path.parts_of_isPart ⟨by decide, by decide⟩
  have hlies := (store.lies_domainPath h).join part.name (by cases part <;> decide)
  rwa [hparts] at hlies

section

variable {store : Store} {root : Place} {disk : Disk} {domain : String}

theorem Keeps.names (h : store.Keeps root disk) (hdomain : Inner domain) (part : Part) :
    disk.Names root (store.partPath domain part) (partNames domain part) where
  below := h.below_of_lies (store.lies_partPath hdomain part)
  ne_nil := by simp [partNames]
  inner := by
    have hinside := hdomain.inside
    cases part <;> simp [partNames, Part.name, hinside]
  last := by
    unfold partNames
    rw [← List.cons_append, List.getLast?_append]
    cases part <;> simp [Part.name]
  slash := by
    rw [partPath, Path.endsInSlash_join _ (by cases part <;> decide)]
    cases part <;> decide

def partPlace (domain : String) (part : Part) : List String :=
  "domains" :: (Disk.undot (Path.parts domain) ++ [part.name])

theorem undot_partNames (domain : String) (part : Part) :
    Disk.undot (partNames domain part) = partPlace domain part := by
  have hname : part.name ≠ "." := by cases part <;> decide
  simp [partNames, partPlace, Disk.undot_cons, hname]

theorem partPlace_injective {part other : Part}
    (h : partPlace domain part = partPlace domain other) :
    part = other := by
  simpa [partPlace, Part.name_injective.eq_iff] using h

/-! ## What is seen of them -/

abbrev Shelf := Part → Option (Option Bytes)

def shelf (store : Store) (disk : Disk) (domain : String) : Shelf :=
  fun part => disk.view (store.partPath domain part)

def Shelf.load (shelf : Shelf) : Except StoreError (Option StoredCertificate) :=
  match shelf .chain, shelf .key, shelf .record with
  | some chain, some key, some record =>
      match Disk.textOf chain, Disk.textOf key, Disk.textOf record with
      | .ok chainPem, .ok keyPem, .ok text =>
          match Record.read text with
          | .ok record => .ok (some ⟨chainPem, keyPem, record⟩)
          | .error cause => .error (.record cause)
      | .error cause, _, _ => .error (.file cause)
      | _, .error cause, _ => .error (.file cause)
      | _, _, .error cause => .error (.file cause)
  | _, _, _ => .ok none

theorem load_eq (store : Store) (disk : Disk) (domain : String) :
    store.load disk domain = (store.shelf disk domain).load := by
  have hchain : store.chainPath domain = store.partPath domain .chain := rfl
  have hkey : store.keyPath domain = store.partPath domain .key := rfl
  have hrecord : store.recordPath domain = store.partPath domain .record := rfl
  unfold load
  simp only [hchain, hkey, hrecord, List.all_cons, List.all_nil, Disk.pathExists_eq]
  cases hc : disk.view (store.partPath domain .chain) with
  | none => simp [Shelf.load, shelf, hc]
  | some chain =>
      cases hk : disk.view (store.partPath domain .key) with
      | none => simp [Shelf.load, shelf, hc, hk]
      | some key =>
          cases hr : disk.view (store.partPath domain .record) with
          | none => simp [Shelf.load, shelf, hc, hk, hr]
          | some record =>
              have hshelf : store.shelf disk domain =
                  fun | .chain => some chain | .key => some key | .record => some record := by
                funext part
                cases part with
                | chain => exact hc
                | key => exact hk
                | record => exact hr
              rw [hshelf]
              simp only [Disk.readText_of_view hc, Disk.readText_of_view hk,
                Disk.readText_of_view hr, Option.isSome_some, Bool.and_self, if_true]
              rfl

theorem EmptyAt.shelf_eq (h : store.EmptyAt root disk) (hdomain : Inner domain) (part : Part) :
    store.shelf disk domain part = none := by
  cases hview : store.shelf disk domain part with
  | none => rfl
  | some content =>
      have hsight := ((h.keeps.tree.view_eq_some_iff (h.keeps.names hdomain part)).mp hview).2
      rw [Disk.sight, undot_partNames, h.empty _ (by simp [partPlace])] at hsight
      cases hsight

theorem Keeps.shelf_eq (h : store.Keeps root disk) (hdomain : Inner domain) {after : Disk}
    {touched : List String → Prop} (hdevelops : Disk.Develops root touched disk after) {part : Part}
    (hpart : ¬ touched (partPlace domain part)) :
    store.shelf after domain part = store.shelf disk domain part :=
  hdevelops.view_eq h.tree (h.names hdomain part) (by rwa [undot_partNames])

theorem Keeps.shelf_write (h : store.Keeps root disk) (hdomain : Inner domain) {after : Disk}
    {part : Part} {mode : Nat} {content : Bytes}
    (hwrite : disk.write (store.partPath domain part) mode content = .ok after) :
    store.Keeps root after ∧
      store.shelf after domain =
        Function.update (store.shelf disk domain) part (some (some content)) := by
  have hnames := h.names hdomain part
  obtain ⟨hdevelops, -⟩ := h.tree.develops_write hnames.below hnames.inner hnames.ne_nil hwrite
  refine ⟨h.develops hdevelops, funext fun other => ?_⟩
  by_cases hother : other = part
  · subst hother
    rw [Function.update_self]
    exact h.tree.view_write hnames hwrite
  · rw [Function.update_of_ne hother]
    refine h.shelf_eq hdomain hdevelops fun heq => hother ?_
    rw [undot_partNames] at heq
    exact partPlace_injective heq

end

end RegistryFront.Store
