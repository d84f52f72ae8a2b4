import RegistryFront.Proofs.Files.Lookup

/-!
# What an action changes

An action below a tree's root leaves a tree, which has grown, and nothing else is seen at any place
but those the action is about.
-/

namespace RegistryFront.Files

namespace Disk

/-! ## Developments -/

structure Develops (root : Place) (touched : List String → Prop) (before after : Disk) : Prop where
  grows : Grows before after
  tree : after.Tree root
  same : ∀ names, ¬ touched names → after.sight (root ++ names) = before.sight (root ++ names)

section

variable {root : Place} {touched : List String → Prop} {disk : Disk}

theorem Tree.develops (h : disk.Tree root) : Develops root touched disk disk :=
  ⟨refl disk, h, fun _ _ => rfl⟩

theorem Develops.trans {first second third : Disk} (h : Develops root touched first second)
    (h' : Develops root touched second third) : Develops root touched first third :=
  ⟨IsTrans.trans _ _ _ h.grows h'.grows, h'.tree,
    fun names hnames => (h'.same names hnames).trans (h.same names hnames)⟩

theorem Develops.mono {before after : Disk} (h : Develops root touched before after)
    {more : List String → Prop} (hmore : ∀ names, touched names → more names) :
    Develops root more before after :=
  ⟨h.grows, h.tree, fun names hnames => h.same names fun htouched => hnames (hmore names htouched)⟩

theorem Develops.view_eq {before after : Disk} (h : Develops root touched before after)
    (htree : before.Tree root) {path : String} {names : List String}
    (hnames : Names root path names before) (hnot : ¬ touched (undot names)) :
    after.view path = before.view path := by
  refine Option.ext fun content => ?_
  rw [htree.view_eq_some_iff hnames, h.tree.view_eq_some_iff (h.grows.names hnames),
    h.same _ hnot]

theorem Tree.develops_put (h : disk.Tree root) {place : Place} {node : Node}
    (hgrows : Grows disk (disk.put place node))
    (hparent : ∀ names name, place = root ++ (names ++ [name]) → disk.DirectoryAt (root ++ names))
    (htouched : ∀ names, place = root ++ names → ¬ touched names →
      disk.sight place = some node.content?) :
    Develops root touched disk (disk.put place node) := by
  by_cases hplace : place = []
  · subst hplace
    have hsame : ∀ other, (disk.put [] node).node? other = disk.node? other := fun other =>
      node?_put_nil disk other node
    refine ⟨hgrows, ⟨hgrows.directoryAt h.directory, fun names name hnode => ?_,
      fun names target => ?_⟩, fun names _ => ?_⟩
    · rw [hsame] at hnode
      exact hgrows.directoryAt (h.parent names name hnode)
    · rw [hsame]
      exact h.link names target
    · simp only [sight, hsame]
  · refine ⟨hgrows, ⟨hgrows.directoryAt h.directory, fun names name hnode => ?_,
      fun names target hlink => ?_⟩, fun names hnames => ?_⟩
    · rw [node?_put hplace] at hnode
      split at hnode
      · next heq => exact hgrows.directoryAt (hparent names name heq.symm)
      · exact hgrows.directoryAt (h.parent names name hnode)
    · exact h.link names target ((hgrows.link _ _).mp hlink)
    · by_cases heq : root ++ names = place
      · rw [sight, node?_put hplace, if_pos heq, heq]
        exact (htouched names heq.symm hnames).symm
      · rw [sight, node?_put hplace, if_neg heq]
        rfl

end

/-! ## Permissions -/

def withMode (mode : Nat) : Node → Node
  | .file _ content => .file mode content
  | .directory _ => .directory mode
  | .link target => .link target

theorem content?_withMode (mode : Nat) (node : Node) :
    (withMode mode node).content? = node.content? := by
  cases node <;> rfl

theorem exists_of_setMode {disk after : Disk} {path : String} {mode : Nat}
    (hset : disk.setMode path mode = .ok after) :
    after = disk ∨ ∃ place node, disk.locate true path = .ok place ∧
      disk.node? place = some node ∧ Grows disk after ∧ after = disk.put place (withMode mode node) := by
  unfold setMode at hset
  cases hfind : disk.find path with
  | error => rw [hfind] at hset; cases hset
  | ok found =>
      obtain ⟨place, node⟩ := found
      obtain ⟨hlocate, hnode⟩ := locate_of_find hfind
      rw [hfind] at hset
      cases node with
      | file =>
          cases hset
          exact .inr ⟨place, _, hlocate, hnode, grows_put (by simp [hnode]) (by simp [hnode]), rfl⟩
      | directory =>
          cases hset
          exact .inr ⟨place, _, hlocate, hnode, grows_put (by simp [hnode]) (by simp [hnode]), rfl⟩
      | link =>
          cases hset
          exact .inl rfl

theorem Tree.develops_setMode {disk after : Disk} {root : Place} (h : disk.Tree root)
    {path : String} {mode : Nat} (hset : disk.setMode path mode = .ok after) :
    Develops root (fun _ => False) disk after := by
  obtain rfl | ⟨place, node, -, hnode, hgrows, rfl⟩ := exists_of_setMode hset
  · exact h.develops
  · refine h.develops_put hgrows ?_ fun _ _ _ => ?_
    · rintro names name rfl
      exact h.parent names name (by simp [hnode])
    · rw [sight, hnode, content?_withMode]
      rfl

/-! ## Files -/

theorem exists_of_write {disk after : Disk} {path : String} {mode : Nat} {content : Bytes}
    (hwrite : disk.write path mode content = .ok after) :
    ∃ place kept, disk.locate true path = .ok place ∧
      (∀ mode, disk.node? place ≠ some (.directory mode)) ∧
      after = disk.put place (.file kept content) := by
  unfold write at hwrite
  cases hlocate : disk.locate true path with
  | error => rw [hlocate] at hwrite; cases hwrite
  | ok place =>
      rw [hlocate] at hwrite
      dsimp only [bind, Except.bind] at hwrite
      split at hwrite
      · cases hwrite
      · next hnode =>
          split at hwrite
          · cases hwrite
          · cases hwrite; exact ⟨place, _, rfl, by simp [hnode], rfl⟩
      · next hnode _ =>
          split at hwrite
          · cases hwrite
          · cases hwrite; exact ⟨place, mode, rfl, hnode, rfl⟩

theorem sight_write {disk after : Disk} {path : String} {mode : Nat} {content : Bytes}
    (hwrite : disk.write path mode content = .ok after) :
    ∃ place, disk.locate true path = .ok place ∧ after.sight place = some (some content) ∧
      ∀ other, other ≠ place → after.sight other = disk.sight other := by
  obtain ⟨place, kept, hlocate, hnode, rfl⟩ := exists_of_write hwrite
  have hne : place ≠ [] := by
    rintro rfl
    exact hnode _ (node?_nil disk)
  refine ⟨place, hlocate, ?_, fun other hother => ?_⟩
  · rw [sight, node?_put hne, if_pos rfl]
    rfl
  · rw [sight, node?_put hne, if_neg hother, sight]

theorem sight_setMode {disk after : Disk} {path : String} {mode : Nat}
    (hset : disk.setMode path mode = .ok after) (place : Place) :
    after.sight place = disk.sight place := by
  obtain rfl | ⟨found, node, -, hnode, -, rfl⟩ := exists_of_setMode hset
  · rfl
  · by_cases hnil : found = []
    · rw [sight, hnil, node?_put_nil, sight]
    · rw [sight, node?_put hnil]
      split
      · next heq => simp [heq, sight, hnode, content?_withMode]
      · rfl

theorem Tree.develops_write {disk after : Disk} {root : Place} {path : String} {names : List String}
    (h : disk.Tree root) (hbelow : disk.Below root path names) (hinner : ".." ∉ names)
    (hnames : names ≠ []) {mode : Nat} {content : Bytes}
    (hwrite : disk.write path mode content = .ok after) :
    Develops root (· = undot names) disk after ∧ Takes path names ∧
      after.sight (root ++ undot names) = some (some content) := by
  obtain ⟨place, kept, hlocate, hnode, hput⟩ := exists_of_write hwrite
  obtain ⟨hsayable, harrives⟩ := h.arrives_of_locate hbelow hinner (.inl hnames) hlocate
  have hplace : place = root ++ undot names := harrives.place_eq
  have hne : place ≠ [] := by
    rintro rfl
    exact hnode _ (node?_nil disk)
  have hparent : ∀ front last, place = root ++ (front ++ [last]) →
      disk.DirectoryAt (root ++ front) := fun front last hsplit => by
    rw [hplace, List.append_cancel_left_eq] at hsplit
    exact harrives.parent front last hsplit
  have hlink : ∀ target, disk.node? place ≠ some (.link target) := by
    rw [hplace]
    exact h.link _
  subst hput
  refine ⟨h.develops_put (grows_put hnode hlink) hparent fun other hother hnot => ?_,
    ⟨hsayable, harrives.size_le⟩, ?_⟩
  · rw [hplace, List.append_cancel_left_eq] at hother
    exact absurd hother.symm hnot
  · rw [sight, node?_put hne, if_pos hplace.symm]
    rfl

theorem Tree.view_write {disk after : Disk} {root : Place} {path : String} {names : List String}
    (h : disk.Tree root) (hnames : Names root path names disk) {mode : Nat} {content : Bytes}
    (hwrite : disk.write path mode content = .ok after) : after.view path = some (some content) := by
  obtain ⟨hdevelops, htakes, hsight⟩ :=
    h.develops_write hnames.below hnames.inner hnames.ne_nil hwrite
  exact (hdevelops.tree.view_eq_some_iff (hdevelops.grows.names hnames)).mpr ⟨htakes, hsight⟩

/-! ## Directories -/

def OnTheWay (names place : List String) : Prop := place ≠ [] ∧ place <+: names

theorem exists_of_makeDirectory {disk after : Disk} {path : String} {mode : Nat}
    (hmake : disk.makeDirectory path mode = .ok after) :
    ∃ place, disk.locate false path = .ok place ∧ disk.node? place = none ∧
      after = disk.put place (.directory mode) := by
  unfold makeDirectory at hmake
  cases hlocate : disk.locate false path with
  | error => rw [hlocate] at hmake; cases hmake
  | ok place =>
      rw [hlocate] at hmake
      dsimp only [bind, Except.bind] at hmake
      split at hmake
      · cases hmake
      · next hnode => cases hmake; exact ⟨place, rfl, hnode, rfl⟩

theorem Tree.develops_makeDirectory {disk after : Disk} {root : Place} {path : String}
    {names : List String} (h : disk.Tree root) (hbelow : disk.Below root path names)
    (hinner : ".." ∉ names) (hnames : undot names ≠ []) {mode : Nat}
    (hmake : disk.makeDirectory path mode = .ok after) :
    Develops root (OnTheWay (undot names)) disk after ∧ after.DirectoryAt (root ++ undot names) := by
  have hne : names ≠ [] := by
    rintro rfl
    exact hnames rfl
  obtain ⟨place, hlocate, hnode, rfl⟩ := exists_of_makeDirectory hmake
  obtain ⟨-, harrives⟩ := h.arrives_of_locate hbelow hinner (.inl hne) hlocate
  obtain rfl : place = root ++ undot names := harrives.place_eq
  refine ⟨h.develops_put (grows_put (by simp [hnode]) (by simp [hnode]))
    (fun front last hsplit => ?_) fun other hother hnot => ?_, mode, ?_⟩
  · rw [List.append_cancel_left_eq] at hsplit
    exact harrives.parent front last hsplit
  · rw [List.append_cancel_left_eq] at hother
    exact absurd ⟨hother ▸ hnames, hother ▸ List.prefix_rfl⟩ hnot
  · rw [node?_put (by simp [hnames]), if_pos rfl]

private theorem walk_last (disk : Disk) (links : Nat) (here : Place) {name : String}
    (hdot : name ≠ ".") (hup : name ≠ "..") :
    disk.walk false links here [name] ≠ .error .noEntry := by
  rw [walk, if_neg hdot, if_neg hup]
  split
  · simp [Errno.nameTooLong, Errno.noEntry]
  · cases hnode : disk.node? (here ++ [name]) with
    | none => simp [hnode]
    | some node => cases node <;> simp [hnode, walk]

theorem Tree.makeDirectory_ne_noEntry {disk : Disk} {root : Place} {path name : String}
    (h : disk.Tree root) (hbelow : disk.Below root path [name]) (hdot : name ≠ ".")
    (hup : name ≠ "..") (mode : Nat) :
    disk.makeDirectory path mode ≠ .error (.os .noEntry) := by
  intro hmake
  unfold makeDirectory at hmake
  cases hlocate : disk.locate false path with
  | ok place =>
      rw [hlocate] at hmake
      dsimp only [bind, Except.bind] at hmake
      split at hmake <;> cases hmake
  | error cause =>
      rw [hlocate] at hmake
      cases hmake
      obtain ⟨front, hparts, hleads⟩ := hbelow
      obtain ⟨kept, hroot⟩ := h.directory
      obtain ⟨left, hwalk⟩ := hleads.walk_append hroot
      have hlast := walk_last disk left root hdot hup
      rw [← hwalk false [name] (.inl (by simp)), ← hparts] at hlast
      by_cases hsayable : Sayable path
      · rw [locate_of_sayable hsayable] at hlocate
        cases hresult : disk.walk false maxLinks (disk.start path) (Path.parts path) with
        | ok => rw [hresult] at hlocate; cases hlocate
        | error errno =>
            rw [hresult] at hlocate
            cases hlocate
            exact hlast hresult
      · obtain ⟨cause, hcause, hempty⟩ := locate_of_not_sayable disk false hsayable
        rw [hlocate] at hcause
        cases hcause
        simp [hempty rfl] at hparts

inductive Climbs (disk : Disk) (root : Place) : List String → List String → Prop where
  | root (others : List String) : Climbs disk root others []
  | up {path name : String} {others names : List String}
      (hbelow : disk.Below root path (names ++ [name])) (hdot : name ≠ ".") (hup : name ≠ "..")
      (hrest : Climbs disk root others names) :
      Climbs disk root (path :: others) (names ++ [name])

theorem Climbs.names {disk : Disk} {root : Place} {paths names : List String}
    (h : Climbs disk root paths names) : undot names = names ∧ ".." ∉ names := by
  induction h with
  | root => simp
  | up _ hdot hup _ ih => simp [ih.1, ih.2, undot_cons hdot, Ne.symm hup]

inductive Making (disk : Disk) (mode : Nat) (path : String) (parents : List String) :
    Except FileError Unit × Disk → Prop where
  | made {after : Disk} (h : disk.makeDirectory path mode = .ok after) :
      Making disk mode path parents (.ok (), after)
  | kept {result : Except FileError Unit}
      (h : result = .ok () → disk.isDirectory path = true) :
      Making disk mode path parents (result, disk)
  | madeInside {middle after : Disk} {result : Except FileError Unit}
      (hmissing : disk.makeDirectory path mode = .error (.os .noEntry))
      (hparents : disk.makeDirectoriesOf mode parents = (result, middle))
      (h : middle.makeDirectory path mode = .ok after) :
      Making disk mode path parents (.ok (), after)
  | keptInside {middle : Disk} {parentsResult result : Except FileError Unit}
      (hmissing : disk.makeDirectory path mode = .error (.os .noEntry))
      (hparents : disk.makeDirectoriesOf mode parents = (parentsResult, middle))
      (h : result = .ok () → middle.isDirectory path = true) :
      Making disk mode path parents (result, middle)

theorem making (disk : Disk) (mode : Nat) (path : String) (parents : List String) :
    Making disk mode path parents (disk.makeDirectoriesOf mode (path :: parents)) := by
  rw [makeDirectoriesOf]
  split
  · next hmake => exact .made hmake
  · next errno hmake =>
      split
      · next hmissing =>
          subst hmissing
          split
          · next hparents => exact .keptInside hmake hparents nofun
          · next hparents =>
              split
              · next hagain => exact .madeInside hmake hparents hagain
              · split
                · next hdirectory => exact .keptInside hmake hparents fun _ => hdirectory
                · exact .keptInside hmake hparents nofun
      · split
        · next hdirectory => exact .kept fun _ => hdirectory
        · exact .kept nofun
  · exact .kept nofun

theorem Tree.directoryAt_of_isDirectory {disk : Disk} {root : Place} {path : String}
    {names : List String} (h : disk.Tree root) (hbelow : disk.Below root path names)
    (hinner : ".." ∉ names) (hdirectory : disk.isDirectory path = true) :
    disk.DirectoryAt (root ++ undot names) := by
  unfold isDirectory at hdirectory
  split at hdirectory
  · next hfind =>
      obtain ⟨hlocate, hnode⟩ := locate_of_find hfind
      obtain ⟨-, harrives⟩ := h.arrives_of_locate hbelow hinner (.inr rfl) hlocate
      have hplace := harrives.place_eq
      rw [List.nil_append] at hplace
      exact ⟨_, by rw [← hplace, hnode]⟩
  · cases hdirectory

theorem Tree.develops_makeDirectoriesOf {disk : Disk} {root : Place} {paths names : List String}
    (h : disk.Tree root) (hclimbs : Climbs disk root paths names) (hnames : names ≠ [])
    (mode : Nat) :
    let (result, after) := disk.makeDirectoriesOf mode paths
    Develops root (OnTheWay names) disk after ∧
      (result = .ok () → after.DirectoryAt (root ++ names)) := by
  induction hclimbs with
  | root => exact absurd rfl hnames
  | @up path name others names hbelow hdot hup hrest ih =>
      obtain ⟨hundot, hinner⟩ := (Climbs.up hbelow hdot hup hrest).names
      have hmade {disk after : Disk} (htree : disk.Tree root)
          (hbelow : disk.Below root path (names ++ [name]))
          (hmake : disk.makeDirectory path mode = .ok after) :
          Develops root (OnTheWay (names ++ [name])) disk after ∧
            after.DirectoryAt (root ++ (names ++ [name])) := by
        have hdevelops := htree.develops_makeDirectory hbelow hinner (by rw [hundot]; simp) hmake
        rwa [hundot] at hdevelops
      have hfound {disk : Disk} (htree : disk.Tree root)
          (hbelow : disk.Below root path (names ++ [name]))
          (hdirectory : disk.isDirectory path = true) :
          disk.DirectoryAt (root ++ (names ++ [name])) := by
        have hat := htree.directoryAt_of_isDirectory hbelow hinner hdirectory
        rwa [hundot] at hat
      -- the root is there, so it is a directory further in whose parent is missing
      have hparents {result : Except FileError Unit} {middle : Disk}
          (hmissing : disk.makeDirectory path mode = .error (.os .noEntry))
          (hmiddle : disk.makeDirectoriesOf mode others = (result, middle)) :
          Develops root (OnTheWay (names ++ [name])) disk middle := by
        have hnames : names ≠ [] := by
          rintro rfl
          exact h.makeDirectory_ne_noEntry hbelow hdot hup mode hmissing
        have houter := ih hnames
        rw [hmiddle] at houter
        exact houter.1.mono fun place hplace =>
          ⟨hplace.1, hplace.2.trans (List.prefix_append names [name])⟩
      have hmaking := disk.making mode path others
      generalize disk.makeDirectoriesOf mode (path :: others) = outcome at hmaking ⊢
      cases hmaking with
      | made hmake => exact (hmade h hbelow hmake).imp id fun hat _ => hat
      | kept hdirectory => exact ⟨h.develops, fun hok => hfound h hbelow (hdirectory hok)⟩
      | madeInside hmissing hmiddle hmake =>
          have houter := hparents hmissing hmiddle
          obtain ⟨hinside, hat⟩ := hmade houter.tree (houter.grows.below hbelow) hmake
          exact ⟨houter.trans hinside, fun _ => hat⟩
      | keptInside hmissing hmiddle hdirectory =>
          have houter := hparents hmissing hmiddle
          exact ⟨houter, fun hok =>
            hfound houter.tree (houter.grows.below hbelow) (hdirectory hok)⟩

/-! ### The parents of a path -/

private def ancestors (front : String) (names : List String) : List String :=
  (List.range names.length).map fun up =>
    front ++ "/".intercalate (names.take (names.length - up))

private theorem ancestors_append (front : String) (names : List String) (name : String) :
    ancestors front (names ++ [name]) =
      (front ++ "/".intercalate (names ++ [name])) :: ancestors front names := by
  unfold ancestors
  rw [List.length_append, List.length_singleton, List.range_succ_eq_map, List.map_cons,
    List.map_map]
  refine congrArg₂ List.cons ?_ (List.map_congr_left fun up _ => ?_)
  · rw [Nat.sub_zero, List.take_of_length_le (by simp)]
  · simp only [Function.comp_apply, Nat.succ_eq_add_one, Nat.add_sub_add_right]
    rw [List.take_append_of_le_length (Nat.sub_le ..)]

private theorem start_eq_of_parts {names : List String} (h : ∀ name ∈ names, Path.IsPart name)
    (path : String) :
    let front := if Path.isAbsolute path then "/" else ""
    Path.parts (front ++ "/".intercalate names) = names ∧
      Path.isAbsolute (front ++ "/".intercalate names) = Path.isAbsolute path := by
  intro front
  cases habsolute : Path.isAbsolute path with
  | true =>
      have hfront : front = "" ++ "/" := by simp [front, habsolute]
      rw [hfront, Path.parts_append_slash, Path.parts_intercalate h]
      exact ⟨by simp, by simp [Path.isAbsolute]⟩
  | false =>
      have hfront : front = "" := by simp [front, habsolute]
      rw [hfront, String.empty_append, Path.parts_intercalate h]
      refine ⟨rfl, ?_⟩
      cases names with
      | nil => rfl
      | cons name rest =>
          have hname := h name List.mem_cons_self
          cases rest with
          | nil => simpa using hname.isAbsolute_eq_false
          | cons next others =>
              rw [String.intercalate_cons_cons, String.append_assoc]
              exact hname.isAbsolute_append _

theorem climbs_withParents {disk : Disk} {root : Place} {path : String} {names : List String}
    (h : disk.Below root path names) (hinner : ".." ∉ names) :
    Climbs disk root (withParents path) (undot names) := by
  obtain ⟨front, hparts, hleads⟩ := h
  have hfront := hleads.undotted (undotted_filter front)
  have hpaths : withParents path =
      ancestors (if Path.isAbsolute path then "/" else "") (undot front ++ undot names) := by
    rw [← undot_append, ← hparts]
    rfl
  have hpart : ∀ name ∈ undot front ++ undot names, Path.IsPart name := by
    intro name hmem
    rw [← undot_append, ← hparts, undot, List.mem_filter] at hmem
    exact Path.isPart_of_mem_parts hmem.1
  have hproper : ∀ name ∈ undot names, name ≠ "." ∧ name ≠ ".." := by
    intro name hmem
    rw [undot, List.mem_filter] at hmem
    exact ⟨by simpa using hmem.2, fun heq => hinner (heq ▸ hmem.1)⟩
  -- the paths go from the inside out, hence the induction from the last name on
  rw [hpaths]
  generalize undot names = inner at hpart hproper
  induction inner using List.reverseRecOn with
  | nil =>
      rw [List.append_nil]
      exact .root _
  | append_singleton inner name ih =>
      obtain ⟨hshape, habsolute⟩ := start_eq_of_parts hpart path
      rw [← List.append_assoc, ancestors_append]
      refine .up ⟨undot front, ?_, ?_⟩ (hproper name (by simp)).1 (hproper name (by simp)).2
        (ih (fun other hmem => hpart other ?_) fun other hmem => hproper other ?_)
      · rw [List.append_assoc]
        exact hshape
      · rw [List.append_assoc, start, habsolute]
        exact hfront
      · rw [← List.append_assoc]
        exact List.mem_append_left _ hmem
      · exact List.mem_append_left _ hmem

theorem Tree.develops_makeDirectories {disk : Disk} {root : Place} {path : String}
    {names : List String} (h : disk.Tree root) (hbelow : disk.Below root path names)
    (hinner : ".." ∉ names) (hnames : undot names ≠ []) (mode : Nat) :
    Develops root (OnTheWay (undot names)) disk (disk.makeDirectories path mode).2 :=
  (h.develops_makeDirectoriesOf (climbs_withParents hbelow hinner) hnames mode).1

theorem Tree.directoryAt_of_makeDirectories {disk after : Disk} {root : Place} {path : String}
    {names : List String} (h : disk.Tree root) (hbelow : disk.Below root path names)
    (hinner : ".." ∉ names) (hnames : undot names ≠ []) {mode : Nat}
    (hmake : disk.makeDirectories path mode = (.ok (), after)) :
    after.DirectoryAt (root ++ undot names) := by
  have hmakes := h.develops_makeDirectoriesOf (climbs_withParents hbelow hinner) hnames mode
  rw [← makeDirectories, hmake] at hmakes
  exact hmakes.2 rfl

end Disk

/-! ## Actions -/

def Action.Touches (names : List String) : Action → List String → Prop
  | .makeDirectories .., place => Disk.OnTheWay (Disk.undot names) place
  | .write .., place => place = Disk.undot names
  | .setMode .., _ => False

def Action.Stays (disk : Disk) (root : Place) (names : List String) : Action → Prop
  | .makeDirectories path _ | .write path _ _ =>
      disk.Below root path names ∧ ".." ∉ names ∧ Disk.undot names ≠ []
  | .setMode .. => True

namespace Disk

theorem Tree.develops_apply {disk : Disk} {root : Place} (h : disk.Tree root) {action : Action}
    {names : List String} (hstays : action.Stays disk root names) :
    Develops root (action.Touches names) disk (action.apply disk).2 := by
  cases action with
  | makeDirectories path mode =>
      obtain ⟨hbelow, hinner, hnames⟩ := hstays
      exact h.develops_makeDirectories hbelow hinner hnames mode
  | write path mode content =>
      obtain ⟨hbelow, hinner, hnames⟩ := hstays
      have hne : names ≠ [] := by
        rintro rfl
        exact hnames rfl
      simp only [Action.apply]
      cases hwrite : disk.write path mode content with
      | error => exact h.develops
      | ok after => exact (h.develops_write hbelow hinner hne hwrite).1
  | setMode path mode =>
      simp only [Action.apply]
      cases hset : disk.setMode path mode with
      | error => exact h.develops
      | ok after => exact h.develops_setMode hset

/-- Mishaps or none, the tree stays one. -/
theorem Tree.develops_applyStruck {disk : Disk} {root : Place} (h : disk.Tree root)
    {action : Action} {names : List String} (hstays : action.Stays disk root names)
    (mishap : Option Mishap) :
    Develops root (action.Touches names) disk (action.applyStruck disk mishap).2 := by
  cases mishap with
  | none => exact h.develops_apply hstays
  | some mishap =>
      cases mishap with
      | refused => exact h.develops
      | emptied cause =>
          cases action with
          | write path mode content =>
              have hemptied : (Action.write path mode []).Stays disk root names := hstays
              exact h.develops_apply hemptied
          | _ => exact h.develops

/-! ## Single files -/

section

variable {disk after : Disk} {path : String} {mode : Nat} {place : Place}

theorem node?_write {content : Bytes} (hwrite : disk.write path mode content = .ok after)
    (hplace : disk.locate true path ≠ .ok place) : after.node? place = disk.node? place := by
  obtain ⟨written, kept, hlocate, hnode, rfl⟩ := exists_of_write hwrite
  have hne : written ≠ [] := by
    rintro rfl
    exact hnode _ (node?_nil disk)
  rw [node?_put hne, if_neg]
  rintro rfl
  exact hplace hlocate

theorem node?_setMode (hset : disk.setMode path mode = .ok after)
    (hplace : disk.locate true path ≠ .ok place) : after.node? place = disk.node? place := by
  obtain rfl | ⟨found, node, hlocate, -, -, rfl⟩ := exists_of_setMode hset
  · rfl
  · by_cases hnil : found = []
    · rw [hnil, node?_put_nil]
    · rw [node?_put hnil, if_neg]
      rintro rfl
      exact hplace hlocate

end

end Disk

/-- The action is about a file, which is there already or comes to be where the path leads. -/
def Action.OnFile (path : String) : Action → Prop
  | .makeDirectories .. => False
  | .write other .. | .setMode other _ => other = path

theorem Disk.node?_applyStruck {disk : Disk} {path : String} {action : Action}
    (h : action.OnFile path) (mishap : Option Mishap) {place : Place}
    (hplace : disk.locate true path ≠ .ok place) :
    (action.applyStruck disk mishap).2.node? place = disk.node? place := by
  have hwritten (mode : Nat) (content : Bytes) :
      (keeping disk (disk.write path mode content)).2.node? place = disk.node? place := by
    cases hwrite : disk.write path mode content with
    | error => rfl
    | ok => exact node?_write hwrite hplace
  cases action with
  | makeDirectories => exact h.elim
  | write other mode content =>
      obtain rfl : other = path := h
      rcases mishap with _ | _ | _
      · exact hwritten mode content
      · rfl
      · exact hwritten mode []
  | setMode other mode =>
      obtain rfl : other = path := h
      rcases mishap with _ | _ | _
      · rw [Action.applyStruck, Action.apply]
        cases hset : disk.setMode other mode with
        | error => rfl
        | ok => exact node?_setMode hset hplace
      · rfl
      · rfl

end RegistryFront.Files
