import RegistryFront.Proofs.Store.Shelf
import RegistryFront.Proofs.Text.Hex
import RegistryFront.Proofs.Text.Utf8

/-!
# Where the store does what

An opening, a save of a certificate and a save of credentials each keep to places of their own.  What
is seen at other places stays, however far they come.
-/

namespace RegistryFront.Store

open Files

variable {store : Store} {root : Place} {touched : List String → Prop}

/-! ## Actions that keep to places -/

/-- In whatever tree of the store, the action stays in it and touches these places only. -/
def Confined (store : Store) (touched : List String → Prop) (action : Action) : Prop :=
  ∃ names, (∀ root disk, store.Keeps root disk → action.Stays disk root names) ∧
    ∀ place, action.Touches names place → touched place

theorem Confined.mono {action : Action} (h : store.Confined touched action)
    {more : List String → Prop} (hmore : ∀ place, touched place → more place) :
    store.Confined more action := by
  obtain ⟨names, hstays, htouches⟩ := h
  exact ⟨names, hstays, fun place hplace => hmore place (htouches place hplace)⟩

theorem confined_setMode (path : String) (mode : Nat) :
    store.Confined touched (.setMode path mode) :=
  ⟨[], fun _ _ _ => trivial, fun _ => False.elim⟩

theorem confined_makeDirectories {path : String} {names : List String} (hlies : store.Lies path names)
    (hinner : ".." ∉ names) (hnames : Disk.undot names ≠ []) (mode : Nat) :
    store.Confined (Disk.OnTheWay (Disk.undot names)) (.makeDirectories path mode) :=
  ⟨names, fun _ _ h => ⟨h.below_of_lies hlies, hinner, hnames⟩, fun _ => id⟩

theorem confined_write {path : String} {names : List String} (hlies : store.Lies path names)
    (hinner : ".." ∉ names) (hnames : Disk.undot names ≠ []) (mode : Nat) (content : Bytes) :
    store.Confined (· = Disk.undot names) (.write path mode content) :=
  ⟨names, fun _ _ h => ⟨h.below_of_lies hlies, hinner, hnames⟩, fun _ => id⟩

theorem Keeps.develops_performAll {drive : Drive} (h : store.Keeps root drive.disk)
    {actions : List Action} (hconfined : ∀ action ∈ actions, store.Confined touched action) :
    Disk.Develops root touched drive.disk (drive.performAll actions).2.disk := by
  induction actions generalizing drive with
  | nil => exact h.tree.develops
  | cons action rest ih =>
      obtain ⟨names, hstays, htouches⟩ := hconfined action List.mem_cons_self
      have hfirst : Disk.Develops root touched drive.disk (drive.perform action).2.disk :=
        (h.tree.develops_applyStruck (hstays root drive.disk h) _).mono htouches
      rw [Drive.performAll]
      rcases hperform : drive.perform action with ⟨_ | _, after⟩ <;> rw [hperform] at hfirst
      · exact hfirst
      · exact hfirst.trans (ih (h.develops hfirst) fun action hmem =>
          hconfined action (List.mem_cons_of_mem _ hmem))

/-! ## Openings -/

def OpenPlace (place : List String) : Prop := place = ["accounts"] ∨ place = ["domains"]

theorem lies_join {name : String} (hname : Path.IsPart name) :
    store.Lies (Path.join store.basePath name) [name] := by
  have hjoin := store.lies_basePath.join name hname.isAbsolute_eq_false
  rwa [Path.parts_of_isPart hname] at hjoin

theorem lies_accountsPath : store.Lies store.accountsPath ["accounts"] :=
  lies_join ⟨by decide, by decide⟩

theorem lies_domainsPath : store.Lies store.domainsPath ["domains"] :=
  lies_join ⟨by decide, by decide⟩

theorem eq_of_onTheWay_single {name : String} {place : List String}
    (h : Disk.OnTheWay [name] place) : place = [name] := by
  obtain ⟨hne, hprefix⟩ := h
  rcases List.prefix_cons_iff.mp hprefix with rfl | ⟨rest, rfl, hrest⟩
  · exact absurd rfl hne
  · rw [List.prefix_nil.mp hrest]

theorem confined_openActions :
    ∀ action ∈ store.openActions, store.Confined OpenPlace action := by
  have haccounts := (confined_makeDirectories store.lies_accountsPath (by decide) (by decide) 0o755)
  have hdomains := (confined_makeDirectories store.lies_domainsPath (by decide) (by decide) 0o755)
  simp only [openActions, List.forall_mem_cons]
  exact ⟨haccounts.mono fun _ h => .inl (eq_of_onTheWay_single h),
    hdomains.mono fun _ h => .inr (eq_of_onTheWay_single h),
    confined_setMode .., confined_setMode .., confined_setMode .., by simp⟩

/-! ## Saves of certificates -/

def CertificatePlace (domain : String) (place : List String) : Prop :=
  Disk.OnTheWay ("domains" :: Disk.undot (Path.parts domain)) place ∨
    ∃ part, place = partPlace domain part

theorem undot_domainNames (domain : String) :
    Disk.undot ("domains" :: Path.parts domain) = "domains" :: Disk.undot (Path.parts domain) :=
  Disk.undot_cons (by decide) _

theorem confined_saveActions {domain : String} (hdomain : Inner domain)
    (certificate : StoredCertificate) :
    ∀ action ∈ store.saveActions domain certificate,
      store.Confined (CertificatePlace domain) action := by
  have hmake : store.Confined (CertificatePlace domain)
      (.makeDirectories (store.domainPath domain) 0o755) := by
    have hconfined := confined_makeDirectories (store.lies_domainPath hdomain)
      (by simp [hdomain.inside]) (by simp [undot_domainNames]) 0o755
    rw [undot_domainNames] at hconfined
    exact hconfined.mono fun _ => .inl
  have hwrite : ∀ part content, store.Confined (CertificatePlace domain)
      (.write (store.partPath domain part) 0o644 content) := by
    intro part content
    have hup : ".." ∉ partNames domain part := by
      have hinside := hdomain.inside
      cases part <;> simp [partNames, Part.name, hinside]
    have hconfined := confined_write (store.lies_partPath hdomain part) hup
      (by simp [undot_partNames, partPlace]) 0o644 content
    rw [undot_partNames] at hconfined
    exact hconfined.mono fun _ h => .inr ⟨part, h⟩
  simp only [saveActions, secretActions, List.cons_append, List.nil_append, List.forall_mem_cons]
  exact ⟨hmake, hwrite .chain _, hwrite .key _, confined_setMode .., hwrite .record _, by simp⟩

/-! ## Saves of credentials -/

def accountFile (directoryUrl : String) : String := accountName directoryUrl ++ ".json"

def accountPlace (directoryUrl : String) : List String := ["accounts", accountFile directoryUrl]

theorem plain_accountFile (url : String) : Plain (accountFile url) := by
  have hslash : '/' ∉ (accountFile url).toList := by
    have haccount :=
      Text.Hex.slash_not_mem_encode ((Digest.sha256 (Text.Utf8.encode url)).take 8)
    simpa [accountFile, accountName] using haccount
  have hlength : 5 ≤ (accountFile url).toList.length := by simp [accountFile]
  exact ⟨⟨fun heq => by simp [heq] at hlength, hslash⟩, fun heq => by simp [heq] at hlength,
    fun heq => by simp [heq] at hlength⟩

theorem lies_accountPath (url : String) : store.Lies (store.accountPath url) (accountPlace url) := by
  have hname := plain_accountFile url
  have hlies := store.lies_accountsPath.join _ hname.inner.relative
  rwa [hname.parts] at hlies

theorem undot_accountPlace (url : String) : Disk.undot (accountPlace url) = accountPlace url := by
  simp [accountPlace, Disk.undot_cons, (plain_accountFile url).ne_dot]

theorem confined_account (url text : String) :
    ∀ action ∈ secretActions (store.accountPath url) text,
      store.Confined (· = accountPlace url) action := by
  have hwrite := confined_write (store.lies_accountPath url)
    (by simp [accountPlace, Ne.symm (plain_accountFile url).ne_up])
    (by rw [undot_accountPlace]; simp [accountPlace]) 0o644 (Text.Utf8.encode text)
  rw [undot_accountPlace] at hwrite
  simp only [secretActions, List.forall_mem_cons]
  exact ⟨hwrite, confined_setMode .., by simp⟩

theorem Keeps.accountNames {disk : Disk} (h : store.Keeps root disk) (url : String) :
    disk.Names root (store.accountPath url) (accountPlace url) where
  below := h.below_of_lies (store.lies_accountPath url)
  ne_nil := by simp [accountPlace]
  inner := by simp [accountPlace, Ne.symm (plain_accountFile url).ne_up]
  last := by simpa [accountPlace] using (plain_accountFile url).ne_dot
  slash := by
    rw [accountPath, Path.endsInSlash_join _ (by simp)]
    simp [Path.endsInSlash]

/-- Whatever befalls a save of credentials, no other node is different after it. -/
theorem Keeps.node?_saveCredentials {drive : Drive} (h : store.Keeps root drive.disk)
    (url text : String) {place : Place} (hplace : place ≠ root ++ accountPlace url) :
    (store.saveCredentials drive url text).2.disk.node? place = drive.disk.node? place := by
  have hfile : ∀ action ∈ secretActions (store.accountPath url) text,
      action.OnFile (store.accountPath url) := by
    simp [secretActions, Action.OnFile]
  have hconfined : ∀ action ∈ secretActions (store.accountPath url) text,
      store.Confined (· = accountPlace url) action := confined_account url text
  unfold saveCredentials ofFiles
  dsimp only
  generalize secretActions (store.accountPath url) text = actions at hfile hconfined ⊢
  induction actions generalizing drive with
  | nil => rfl
  | cons action rest ih =>
      obtain ⟨hfirst, hrest⟩ := List.forall_mem_cons.mp hfile
      obtain ⟨hconfined, hothers⟩ := List.forall_mem_cons.mp hconfined
      have hkeeps : store.Keeps root (drive.perform action).2.disk := by
        obtain ⟨names, hstays, -⟩ := hconfined
        exact h.develops (h.tree.develops_applyStruck (hstays root drive.disk h) _)
      have hlocate : drive.disk.locate true (store.accountPath url) ≠ .ok place := by
        intro hlocate
        have hnames := h.accountNames url
        obtain ⟨-, harrives⟩ :=
          h.tree.arrives_of_locate hnames.below hnames.inner (.inr rfl) hlocate
        rw [← undot_accountPlace url] at hplace
        exact hplace harrives.place_eq
      have hsame : (drive.perform action).2.disk.node? place = drive.disk.node? place :=
        Disk.node?_applyStruck hfirst _ hlocate
      rw [Drive.performAll]
      rcases hperform : drive.perform action with ⟨_ | _, after⟩ <;> rw [hperform] at hkeeps hsame
      · exact hsame
      · exact (ih hkeeps hrest hothers).trans hsame

/-! ## What the store makes of an account's file -/

theorem loadCredentials_of_none {disk : Disk} {url : String}
    (h : disk.view (store.accountPath url) = none) :
    store.loadCredentials disk url = .ok none := by
  simp [loadCredentials, Disk.pathExists_eq, h]

theorem loadCredentials_of_text {disk : Disk} {url text : String}
    (h : disk.view (store.accountPath url) = some (some (Text.Utf8.encode text))) :
    store.loadCredentials disk url = .ok (some text) := by
  simp [loadCredentials, Disk.pathExists_eq, h, Disk.readText_of_view h, Disk.textOf]

theorem loadCredentials_congr {disk after : Disk} {url : String}
    (h : after.view (store.accountPath url) = disk.view (store.accountPath url)) :
    store.loadCredentials after url = store.loadCredentials disk url := by
  cases hview : disk.view (store.accountPath url) with
  | none => rw [loadCredentials_of_none hview, loadCredentials_of_none (h.trans hview)]
  | some content =>
      simp only [loadCredentials, Disk.pathExists_eq, h, Disk.readText_of_view hview,
        Disk.readText_of_view (h.trans hview)]

end RegistryFront.Store
