import RegistryFront.Proofs.Store.Unlinked

/-!
# Files of accounts

Openings, saves of certificates and saves for other authorities leave the file of an account as it
is, and make none.  Where there was no file, a save of credentials leaves none, an empty one or the
whole text.
-/

namespace RegistryFront

namespace Files

/-! ## One file -/

/-- A file is at the place after it just if it was there before, with this content and mode. -/
def Disk.SameFileAt (place : Place) (before after : Disk) : Prop :=
  ∀ mode content, after.node? place = some (.file mode content) ↔
    before.node? place = some (.file mode content)

section

variable {place : Place}

instance : IsPreorder Disk (Disk.SameFileAt place) where
  refl _ _ _ := Iff.rfl
  trans _ _ _ h h' := fun mode content => (h' mode content).trans (h mode content)

theorem Disk.sameFileAt_of_node? {before after : Disk} (h : after.node? place = before.node? place) :
    Disk.SameFileAt place before after :=
  fun _ _ => by rw [h]

def Disk.FileLasts (place : Place) (before after : Disk) : Prop :=
  ∀ mode content, before.node? place = some (.file mode content) →
    after.node? place = some (.file mode content)

instance : IsPreorder Disk (Disk.FileLasts place) where
  refl _ _ _ := id
  trans _ _ _ h h' := fun mode content hfile => h' mode content (h mode content hfile)

theorem Disk.SameFileAt.lasts {before after : Disk} (h : Disk.SameFileAt place before after) :
    Disk.FileLasts place before after :=
  fun mode content => (h mode content).mpr

/-- The action neither writes at the place nor sets the mode of what is there. -/
def Action.Away (disk : Disk) (place : Place) : Action → Prop
  | .makeDirectories .. => True
  | .write path .. | .setMode path _ => disk.locate true path ≠ .ok place

theorem Action.Away.sameFileAt {disk : Disk} {action : Action} (h : action.Away disk place)
    (mishap : Option Mishap) : Disk.SameFileAt place disk (action.applyStruck disk mishap).2 := by
  cases action with
  | makeDirectories path mode =>
      rcases mishap with _ | _ | _
      · exact (disk.spares_makeDirectoriesOf mode (Disk.withParents path)).file place
      · exact refl disk
      · exact refl disk
  | write path mode content =>
      have honly : (Action.write path mode content).OnFile path := rfl
      exact Disk.sameFileAt_of_node? (Disk.node?_applyStruck honly mishap h)
  | setMode path mode =>
      have honly : (Action.setMode path mode).OnFile path := rfl
      exact Disk.sameFileAt_of_node? (Disk.node?_applyStruck honly mishap h)

theorem Drive.sameFileAt_performAll {drive : Drive} (hrooted : drive.disk.Rooted)
    {actions : List Action}
    (h : ∀ action ∈ actions, ∀ disk, Disk.Extends drive.disk disk → action.Away disk place) :
    Disk.SameFileAt place drive.disk (drive.performAll actions).2.disk := by
  induction actions generalizing drive with
  | nil => exact refl drive.disk
  | cons action rest ih =>
      obtain ⟨hfirst, hrest⟩ := List.forall_mem_cons.mp h
      have hsame : Disk.SameFileAt place drive.disk (drive.perform action).2.disk :=
        (hfirst drive.disk hrooted.extends_refl).sameFileAt _
      have hextends : Disk.Extends drive.disk (drive.perform action).2.disk :=
        hrooted.extends_applyStruck action _
      rw [Drive.performAll]
      rcases hperform : drive.perform action with ⟨_ | _, after⟩ <;>
        rw [hperform] at hsame hextends
      · exact hsame
      · refine IsTrans.trans _ _ _ hsame (ih hextends.rooted fun action hmem disk hdisk => ?_)
        exact hrest action hmem disk (hextends.trans hdisk)

end

end Files

namespace Store

open Files

variable {store : Store} {root : Place} {disk : Disk} {url : String}

/-! ## What the store finds -/

theorem loadCredentials_eq_none_iff :
    store.loadCredentials disk url = .ok none ↔
      disk.pathExists (store.accountPath url) = false := by
  rw [loadCredentials]
  cases disk.pathExists (store.accountPath url) with
  | false => simp
  | true => cases disk.readText (store.accountPath url) <;> simp

theorem textOf_eq_ok_iff {content : Option Bytes} {text : String} :
    Disk.textOf content = .ok text ↔ content = some (Text.Utf8.encode text) := by
  cases content with
  | none => simp [Disk.textOf]
  | some content =>
      rw [Disk.textOf, Option.some.injEq]
      constructor
      · intro h
        cases hdecode : Text.Utf8.decode? content with
        | none => simp [hdecode] at h
        | some found =>
            rw [hdecode] at h
            obtain rfl := Except.ok.inj h
            exact (Text.Utf8.encode_of_decode? hdecode).symm
      · rintro rfl
        rw [Text.Utf8.decode?_encode]

theorem loadCredentials_eq_some_iff_view {text : String} :
    store.loadCredentials disk url = .ok (some text) ↔
      disk.view (store.accountPath url) = some (some (Text.Utf8.encode text)) := by
  cases hview : disk.view (store.accountPath url) with
  | none => simp [loadCredentials_of_none hview]
  | some content =>
      rw [loadCredentials, Disk.pathExists_eq, hview, Disk.readText_of_view hview,
        Option.some.injEq, ← textOf_eq_ok_iff]
      cases Disk.textOf content <;> simp

def accountNode (root : Place) (url : String) : Place := root ++ accountPlace url

theorem Keeps.loadCredentials_eq_some_iff (h : store.Keeps root disk) {text : String} :
    store.loadCredentials disk url = .ok (some text) ↔
      Disk.Takes (store.accountPath url) (accountPlace url) ∧
        ∃ mode, disk.node? (accountNode root url) = some (.file mode (Text.Utf8.encode text)) := by
  rw [loadCredentials_eq_some_iff_view, h.tree.view_eq_some_iff (h.accountNames url),
    undot_accountPlace, Disk.sight, ← accountNode]
  refine and_congr_right fun _ => ?_
  cases disk.node? (accountNode root url) with
  | none => simp
  | some node => cases node <;> simp [Node.content?]

theorem Keeps.loadCredentials_of_sameFileAt {after : Disk} (h : store.Keeps root disk)
    (hafter : store.Keeps root after) (hsame : Disk.SameFileAt (accountNode root url) disk after)
    {text : String} :
    store.loadCredentials after url = .ok (some text) ↔
      store.loadCredentials disk url = .ok (some text) := by
  rw [hafter.loadCredentials_eq_some_iff, h.loadCredentials_eq_some_iff]
  simp only [hsame _ _]

theorem Keeps.loadCredentials_of_fileLasts {after : Disk} (h : store.Keeps root disk)
    (hafter : store.Keeps root after) (hlasts : Disk.FileLasts (accountNode root url) disk after)
    {text : String} (hload : store.loadCredentials disk url = .ok (some text)) :
    store.loadCredentials after url = .ok (some text) := by
  rw [h.loadCredentials_eq_some_iff] at hload
  obtain ⟨htakes, mode, hnode⟩ := hload
  exact hafter.loadCredentials_eq_some_iff.mpr ⟨htakes, mode, hlasts mode _ hnode⟩

/-! ## Openings -/

theorem Keeps.eq_of_locate (h : store.Keeps root disk) {path : String} {names : List String}
    (hlies : store.Lies path names) (hinner : ".." ∉ names) {place : Place}
    (hlocate : disk.locate true path = .ok place) : place = root ++ Disk.undot names := by
  obtain ⟨-, harrives⟩ :=
    h.tree.arrives_of_locate (h.below_of_lies hlies) hinner (.inr rfl) hlocate
  exact harrives.place_eq

theorem Keeps.away_openActions (h : store.Keeps root disk) :
    ∀ action ∈ store.openActions, action.Away disk (accountNode root url) := by
  have hmode {path : String} {names : List String} (hlies : store.Lies path names)
      (hinner : ".." ∉ names) (hshort : (Disk.undot names).length ≤ 1) :
      disk.locate true path ≠ .ok (accountNode root url) := by
    intro hlocate
    have hplace := List.append_cancel_left (h.eq_of_locate hlies hinner hlocate)
    rw [← hplace] at hshort
    simp [accountPlace] at hshort
  simp only [openActions, List.forall_mem_cons]
  exact ⟨trivial, trivial, hmode store.lies_basePath (by decide) (by decide),
    hmode store.lies_accountsPath (by decide) (by decide),
    hmode store.lies_domainsPath (by decide) (by decide), by simp⟩

theorem Keeps.sameFileAt_opening {drive : Drive} (h : store.Keeps root drive.disk)
    (hrooted : drive.disk.Rooted) (url : String) :
    Disk.SameFileAt (accountNode root url) drive.disk
      (drive.performAll store.openActions).2.disk :=
  Drive.sameFileAt_performAll hrooted fun action hmem _ hdisk =>
    (h.of_extends hdisk).away_openActions action hmem

/-! ## Saves of certificates -/

/-- The files of the domain are not reached through links: its directory lies in the store, or no
link has the name of one of them. -/
def Direct (disk : Disk) (domain : String) : Prop :=
  Inner domain ∨ ∀ (part : Part) front target,
    disk.node? (front ++ [part.name]) ≠ some (.link target)

theorem Direct.of_grows {after : Disk} {domain : String} (h : Direct disk domain)
    (hgrows : Disk.Grows disk after) : Direct after domain := by
  refine h.imp_right fun hlinks part front target hlink => ?_
  exact hlinks part front target ((hgrows.link _ _).mp hlink)

theorem Keeps.getLast?_of_locate (h : store.Keeps root disk) {domain : String}
    (hdirect : Direct disk domain) {part : Part} {place : Place}
    (hlocate : disk.locate true (store.partPath domain part) = .ok place) :
    place.getLast? = some part.name := by
  rcases hdirect with hinner | hlinks
  · exact (h.unlinked hinner).getLast? hlocate
  · obtain ⟨-, hleads⟩ := Disk.locate_eq_ok_iff.mp hlocate
    obtain ⟨middle, -, rfl | ⟨target, hlink⟩⟩ := hleads.last_name
      (store.partPath_parts domain part) (by cases part <;> decide) (by cases part <;> decide)
    · simp
    · exact absurd hlink (hlinks part middle target)

theorem accountFile_ne (url : String) (part : Part) : accountFile url ≠ part.name := by
  have hrest (name : String) (hname : Text.Hex.decode? name = none) :
      accountFile url ≠ name ++ ".json" := by
    intro heq
    have hfront : accountName url = name := (String.append_left_inj ".json").mp heq
    rw [← hfront, accountName, Text.Hex.decode?_encode] at hname
    cases hname
  have hlast : (accountFile url).toList.getLast? = some 'n' := by
    simp [accountFile]
  cases part with
  | chain => exact fun heq => by simp [heq, Part.name] at hlast
  | key => exact fun heq => by simp [heq, Part.name] at hlast
  | record => exact hrest "meta" (by decide)

theorem Keeps.away_saveActions (h : store.Keeps root disk) {domain : String}
    (hdirect : Direct disk domain) (certificate : StoredCertificate) :
    ∀ action ∈ store.saveActions domain certificate, action.Away disk (accountNode root url) := by
  have haway (part : Part) :
      disk.locate true (store.partPath domain part) ≠ .ok (accountNode root url) := by
    intro hlocate
    have hlast := h.getLast?_of_locate hdirect hlocate
    rw [accountNode, accountPlace, List.getLast?_append] at hlast
    exact accountFile_ne url part (Option.some.inj hlast)
  simp only [saveActions, secretActions, List.cons_append, List.nil_append, List.forall_mem_cons]
  exact ⟨trivial, haway .chain, haway .key, haway .key, haway .record, by simp⟩

theorem Keeps.sameFileAt_save {drive : Drive} (h : store.Keeps root drive.disk)
    (hrooted : drive.disk.Rooted) {domain : String} (hdirect : Direct drive.disk domain)
    (certificate : StoredCertificate) (url : String) :
    Disk.SameFileAt (accountNode root url) drive.disk
      (store.save drive domain certificate).2.disk :=
  Drive.sameFileAt_performAll hrooted fun action hmem _ hdisk =>
    (h.of_extends hdisk).away_saveActions (hdirect.of_grows hdisk.grows) certificate action hmem

/-! ## Saves of credentials -/

theorem Keeps.sameFileAt_saveCredentials {drive : Drive} (h : store.Keeps root drive.disk)
    {other : String} (hother : Deed.digestStart other ≠ Deed.digestStart url) (text : String) :
    Disk.SameFileAt (accountNode root url) drive.disk
      (store.saveCredentials drive other text).2.disk := by
  refine Disk.sameFileAt_of_node? (h.node?_saveCredentials other text fun hplace => ?_)
  have hnames := List.append_cancel_left hplace
  exact hother (accountFile_inj (List.cons.inj (List.cons.inj hnames).2).1).symm

theorem Keeps.not_takes_of_missing (h : store.Keeps root disk)
    (hmissing : store.loadCredentials disk url = .ok none)
    (hnode : disk.node? (accountNode root url) ≠ none) :
    ¬ Disk.Takes (store.accountPath url) (accountPlace url) := by
  intro htakes
  obtain ⟨node, hnode⟩ := Option.ne_none_iff_exists'.mp hnode
  have hview : disk.view (store.accountPath url) = some node.content? := by
    rw [h.tree.view_eq_some_iff (h.accountNames url), undot_accountPlace, Disk.sight,
      ← accountNode, hnode]
    exact ⟨htakes, rfl⟩
  rw [loadCredentials_eq_none_iff, Disk.pathExists_eq, hview] at hmissing
  cases hmissing

theorem Keeps.away_of_not_takes {after : Disk} (h : store.Keeps root disk)
    (htakes : ¬ Disk.Takes (store.accountPath url) (accountPlace url))
    (hdisk : Disk.Extends disk after) {text : String} :
    ∀ action ∈ secretActions (store.accountPath url) text,
      action.Away after (accountNode root url) := by
  have haway : after.locate true (store.accountPath url) ≠ .ok (accountNode root url) := by
    intro hlocate
    have hnames := (h.of_extends hdisk).accountNames url
    obtain ⟨hsayable, harrives⟩ := (h.of_extends hdisk).tree.arrives_of_locate hnames.below
      hnames.inner (.inr rfl) hlocate
    exact htakes ⟨hsayable, harrives.size_le⟩
  simp only [secretActions, List.forall_mem_cons]
  exact ⟨haway, haway, by simp⟩

theorem Keeps.fileLasts_saveCredentials {drive : Drive} (h : store.Keeps root drive.disk)
    (hrooted : drive.disk.Rooted) {other : String}
    (hmissing : store.loadCredentials drive.disk other = .ok none) (url text : String) :
    Disk.FileLasts (accountNode root url) drive.disk
      (store.saveCredentials drive other text).2.disk := by
  by_cases hother : Deed.digestStart other = Deed.digestStart url
  · have hplace : accountNode root url = accountNode root other := by
      rw [accountNode, accountPlace, accountFile, accountName]
      exact congrArg (fun start => root ++ ["accounts", Text.Hex.encode start ++ ".json"])
        hother.symm
    rw [hplace]
    intro mode content hnode
    have htakes := h.not_takes_of_missing hmissing (by simp [hnode])
    have hsame : Disk.SameFileAt (accountNode root other) drive.disk
        (drive.performAll (secretActions (store.accountPath other) text)).2.disk := by
      refine Drive.sameFileAt_performAll hrooted fun action hmem disk hdisk => ?_
      exact h.away_of_not_takes htakes hdisk action hmem
    exact hsame.lasts mode content hnode
  · exact (h.sameFileAt_saveCredentials hother text).lasts

theorem view_of_stops {before after : Disk} {path text : String} {names : List String} {done : Nat}
    {cut : Bool} (htree : before.Tree root) (hnames : Disk.Names root path names before)
    (hstops : Stops before (secretActions path text) done cut after) :
    after = before ∨ after.view path = some (some []) ∨
      after.view path = some (some (Text.Utf8.encode text)) := by
  rcases hstops with _ | hfailed | hemptied | ⟨hwrite, hrest⟩
  · exact .inl rfl
  · exact .inl (error_of_keeping hfailed)
  · exact .inr (.inl (htree.view_write hnames hemptied))
  · have hwritten := ok_of_keeping hwrite
    have hview := htree.view_write hnames hwritten
    obtain ⟨hdevelops, -⟩ := htree.develops_write hnames.below hnames.inner hnames.ne_nil hwritten
    refine .inr (.inr ?_)
    rcases hrest with _ | hfailed | _ | ⟨hmode, hend⟩
    · exact hview
    · rwa [error_of_keeping hfailed]
    · cases hend
      have hset := hdevelops.tree.develops_setMode (ok_of_keeping hmode)
      rwa [hset.view_eq hdevelops.tree (hdevelops.grows.names hnames) id]

theorem Keeps.text_of_saveCredentials {drive after : Drive} (h : store.Keeps root drive.disk)
    (hmissing : store.loadCredentials drive.disk url = .ok none) {text found : String}
    {result : Except StoreError Unit}
    (hsave : store.saveCredentials drive url text = (result, after))
    (hfound : store.loadCredentials after.disk url = .ok (some found)) :
    found = text ∨ found = "" := by
  have hdrive : (drive.performAll (secretActions (store.accountPath url) text)).2 = after :=
    congrArg Prod.snd hsave
  have hstops : ∃ done cut,
      Stops drive.disk (secretActions (store.accountPath url) text) done cut after.disk := by
    have hperformed := drive.performAll_stops (secretActions (store.accountPath url) text)
    rw [hdrive] at hperformed
    rcases hperformed with ⟨-, hstops⟩ | ⟨-, done, -, cut, hstops⟩
    · exact ⟨_, _, hstops⟩
    · exact ⟨done, cut, hstops⟩
  obtain ⟨done, cut, hstops⟩ := hstops
  rcases view_of_stops h.tree (h.accountNames url) hstops with hsame | hempty | hwhole
  · rw [hsame, hmissing] at hfound
    cases hfound
  · rw [loadCredentials_eq_some_iff_view, hempty] at hfound
    exact .inr (Text.Utf8.encode_injective (Option.some.inj (Option.some.inj hfound)).symm)
  · rw [loadCredentials_eq_some_iff_view, hwhole] at hfound
    exact .inl (Text.Utf8.encode_injective (Option.some.inj (Option.some.inj hfound)).symm)

end Store

end RegistryFront
