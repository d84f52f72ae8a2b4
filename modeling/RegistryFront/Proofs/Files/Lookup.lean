import RegistryFront.Proofs.Files.Tree

/-!
# Looking up a path

A path that goes on below a tree's root leads to the place its names say, if it leads anywhere; and
what is read there is what is at that place.
-/

namespace RegistryFront.Files

def Node.content? : Node → Option Bytes
  | .file _ content => some content
  | _ => none

namespace Disk

/-! ## Paths that begin with the way to the root -/

def start (disk : Disk) (path : String) : Place := if Path.isAbsolute path then [] else disk.base

structure Sayable (path : String) : Prop where
  no_nul : path.toList.any (·.toNat == 0) = false
  ne_empty : path ≠ ""
  size_le : Text.Utf8.size path ≤ maxPath

theorem locate_of_sayable {disk : Disk} {followLast : Bool} {path : String} (h : Sayable path) :
    disk.locate followLast path =
      (disk.walk followLast maxLinks (disk.start path) (Path.parts path)).mapError .os := by
  have hnul : ¬ path.toList.any (·.toNat == 0) = true := by simp [h.no_nul]
  unfold locate start
  rw [if_neg hnul, if_neg h.ne_empty, if_neg (Nat.not_lt.mpr h.size_le)]
  dsimp only
  cases disk.walk followLast maxLinks (if Path.isAbsolute path then [] else disk.base)
    (Path.parts path) <;> rfl

theorem locate_of_not_sayable (disk : Disk) (followLast : Bool) {path : String}
    (h : ¬ Sayable path) :
    ∃ cause, disk.locate followLast path = .error cause ∧ (cause = .os .noEntry → path = "") := by
  unfold locate
  split
  · exact ⟨_, rfl, nofun⟩
  · next hnul =>
      split
      · next hempty => exact ⟨_, rfl, fun _ => hempty⟩
      · next hempty =>
          have hsize : Text.Utf8.size path > maxPath :=
            Nat.not_le.mp fun hsize => h ⟨by simpa using hnul, hempty, hsize⟩
          rw [if_pos hsize]
          exact ⟨_, rfl, nofun⟩

theorem locate_eq_ok_iff {disk : Disk} {followLast : Bool} {path : String} {place : Place} :
    disk.locate followLast path = .ok place ↔
      Sayable path ∧ disk.Leads followLast maxLinks (disk.start path) (Path.parts path) place := by
  rw [← walk_eq_ok_iff]
  by_cases hsayable : Sayable path
  · rw [locate_of_sayable hsayable]
    cases disk.walk followLast maxLinks (disk.start path) (Path.parts path) <;>
      simp [hsayable, Except.mapError]
  · obtain ⟨cause, hcause, -⟩ := locate_of_not_sayable disk followLast hsayable
    simp [hcause, hsayable]

/-- The path leads to the root and from there on along the names. -/
def Below (disk : Disk) (root : Place) (path : String) (names : List String) : Prop :=
  ∃ front, Path.parts path = front ++ names ∧
    disk.Leads true maxLinks (disk.start path) front root

theorem Grows.below {before after : Disk} (h : Grows before after) {root : Place} {path : String}
    {names : List String} (hbelow : before.Below root path names) :
    after.Below root path names := by
  obtain ⟨front, hparts, hleads⟩ := hbelow
  refine ⟨front, hparts, ?_⟩
  rw [start, h.base]
  exact h.leads hleads

theorem Grows.locate {before after : Disk} (h : Grows before after) {followLast : Bool}
    {path : String} {place : Place} (hlocate : before.locate followLast path = .ok place) :
    after.locate followLast path = .ok place := by
  obtain ⟨hsayable, hleads⟩ := locate_eq_ok_iff.mp hlocate
  refine locate_eq_ok_iff.mpr ⟨hsayable, ?_⟩
  rw [start, h.base]
  exact h.leads hleads

section

variable {disk : Disk} {root : Place} {path : String} {names : List String}

private theorem Below.leads_iff (h : disk.Below root path names) (hroot : disk.DirectoryAt root) :
    ∃ left, ∀ followLast place, names ≠ [] ∨ followLast = true →
      (disk.Leads followLast maxLinks (disk.start path) (Path.parts path) place ↔
        disk.Leads followLast left root names place) := by
  obtain ⟨front, hparts, hleads⟩ := h
  obtain ⟨mode, hmode⟩ := hroot
  obtain ⟨left, hwalk⟩ := hleads.walk_append hmode
  refine ⟨left, fun followLast place hgo => ?_⟩
  rw [hparts, ← walk_eq_ok_iff, ← walk_eq_ok_iff, hwalk followLast names hgo]

theorem Tree.arrives_of_locate (h : disk.Tree root) (hbelow : disk.Below root path names)
    (hinner : ".." ∉ names) {followLast : Bool} {place : Place}
    (hgo : names ≠ [] ∨ followLast = true) (hlocate : disk.locate followLast path = .ok place) :
    Sayable path ∧ Arrives disk root [] names place := by
  obtain ⟨left, hiff⟩ := hbelow.leads_iff h.directory
  obtain ⟨hsayable, hleads⟩ := locate_eq_ok_iff.mp hlocate
  have hroot : disk.DirectoryAt (root ++ []) := by simpa using h.directory
  have hnames := (hiff followLast place hgo).mp hleads
  rw [← List.append_nil root] at hnames
  exact ⟨hsayable, h.arrives hinner hroot hnames⟩

theorem Tree.locate_of_node (h : disk.Tree root) (hbelow : disk.Below root path names)
    (hinner : ".." ∉ names) (hlast : names.getLast? ≠ some ".") (followLast : Bool)
    (hgo : names ≠ [] ∨ followLast = true) (hsayable : Sayable path)
    (hsize : ∀ name ∈ names, Text.Utf8.size name ≤ maxName)
    (hnode : disk.node? (root ++ undot names) ≠ none) :
    disk.locate followLast path = .ok (root ++ undot names) := by
  obtain ⟨left, hiff⟩ := hbelow.leads_iff h.directory
  have hleads := h.leads followLast left [] hinner hsize hlast hnode
  rw [List.append_nil, List.nil_append] at hleads
  exact locate_eq_ok_iff.mpr ⟨hsayable, (hiff followLast _ hgo).mpr hleads⟩

end

/-! ## What can be seen at a path -/

def sight (disk : Disk) (place : Place) : Option (Option Bytes) :=
  (disk.node? place).map Node.content?

def view (disk : Disk) (path : String) : Option (Option Bytes) :=
  match disk.find path with
  | .ok (_, node) => some node.content?
  | .error _ => none

theorem pathExists_eq (disk : Disk) (path : String) :
    disk.pathExists path = (disk.view path).isSome := by
  unfold pathExists view
  cases disk.find path <;> rfl

def textOf : Option Bytes → Except FileError String
  | none => .error (.os .isDirectory)
  | some content =>
      match Text.Utf8.decode? content with
      | some text => .ok text
      | none => .error .notText

theorem readText_of_view {disk : Disk} {path : String} {content : Option Bytes}
    (h : disk.view path = some content) : disk.readText path = textOf content := by
  unfold view at h
  cases hfind : disk.find path with
  | error => simp [hfind] at h
  | ok found =>
      obtain ⟨place, node⟩ := found
      simp only [hfind, Option.some.injEq] at h
      subst h
      unfold readText read
      cases node <;> simp only [hfind] <;> rfl

theorem locate_of_find {disk : Disk} {path : String} {place : Place} {node : Node}
    (h : disk.find path = .ok (place, node)) :
    disk.locate true path = .ok place ∧ disk.node? place = some node := by
  unfold find at h
  cases hlocate : disk.locate true path with
  | error => rw [hlocate] at h; cases h
  | ok located =>
      rw [hlocate] at h
      dsimp only [bind, Except.bind] at h
      split at h
      · cases h
      · next hnode =>
          split at h
          · cases h
          · cases h; exact ⟨rfl, hnode⟩
      · next _ hnode => cases h; exact ⟨rfl, hnode⟩

theorem find_eq_ok_iff {disk : Disk} {path : String} {place : Place} {node : Node}
    (hslash : Path.endsInSlash path = false) :
    disk.find path = .ok (place, node) ↔
      disk.locate true path = .ok place ∧ disk.node? place = some node := by
  refine ⟨locate_of_find, fun ⟨hlocate, hnode⟩ => ?_⟩
  unfold find
  rw [hlocate]
  dsimp only [bind, Except.bind]
  rw [hnode]
  cases node <;> simp [hslash]

theorem pathExists_of_find {disk : Disk} {path : String} {found : Place × Node}
    (h : disk.find path = .ok found) : disk.pathExists path = true := by
  rw [pathExists, h]
  rfl

theorem pathExists_of_readText {disk : Disk} {path text : String}
    (h : disk.readText path = .ok text) : disk.pathExists path = true := by
  cases hfind : disk.find path with
  | error => simp [readText, read, hfind, bind, Except.bind] at h
  | ok found => exact pathExists_of_find hfind

theorem read_of_find {disk : Disk} {path : String} {place : Place} {mode : Nat} {content : Bytes}
    (h : disk.find path = .ok (place, .file mode content)) : disk.read path = .ok content := by
  rw [read, h]
  rfl

theorem view_of_locate {disk : Disk} {path : String} {place : Place} {content : Option Bytes}
    (hslash : Path.endsInSlash path = false) (hlocate : disk.locate true path = .ok place)
    (hsight : disk.sight place = some content) : disk.view path = some content := by
  obtain ⟨node, hnode, rfl⟩ := Option.map_eq_some_iff.mp hsight
  rw [view, (find_eq_ok_iff hslash).mpr ⟨hlocate, hnode⟩]

structure Names (root : Place) (path : String) (names : List String) (disk : Disk) : Prop where
  below : disk.Below root path names
  ne_nil : names ≠ []
  inner : ".." ∉ names
  last : names.getLast? ≠ some "."
  slash : Path.endsInSlash path = false

theorem Grows.names {before after : Disk} (h : Grows before after) {root : Place} {path : String}
    {names : List String} (hnames : Names root path names before) : Names root path names after :=
  { hnames with below := h.below hnames.below }

structure Takes (path : String) (names : List String) : Prop where
  sayable : Sayable path
  size_le : ∀ name ∈ names, Text.Utf8.size name ≤ maxName

theorem Tree.view_eq_some_iff {disk : Disk} {root : Place} {path : String} {names : List String}
    (h : disk.Tree root) (hnames : Names root path names disk) {content : Option Bytes} :
    disk.view path = some content ↔
      Takes path names ∧ disk.sight (root ++ undot names) = some content := by
  unfold view sight
  constructor
  · intro hview
    cases hfind : disk.find path with
    | error => simp [hfind] at hview
    | ok found =>
        obtain ⟨place, node⟩ := found
        obtain ⟨hlocate, hnode⟩ := (find_eq_ok_iff hnames.slash).mp hfind
        obtain ⟨hsayable, harrives⟩ :=
          h.arrives_of_locate hnames.below hnames.inner (.inl hnames.ne_nil) hlocate
        have hplace := harrives.place_eq
        rw [List.nil_append] at hplace
        refine ⟨⟨hsayable, harrives.size_le⟩, ?_⟩
        rw [← hplace, hnode]
        simpa [hfind] using hview
  · rintro ⟨htakes, hsight⟩
    obtain ⟨node, hnode, hcontent⟩ := Option.map_eq_some_iff.mp hsight
    have hlocate := h.locate_of_node hnames.below hnames.inner hnames.last true
      (.inl hnames.ne_nil) htakes.sayable htakes.size_le (by simp [hnode])
    rw [(find_eq_ok_iff hnames.slash).mpr ⟨hlocate, hnode⟩]
    simpa using hcontent

end Disk

end RegistryFront.Files
