import RegistryFront.Proofs.Files.Interruption
import RegistryFront.Proofs.Store.Places

/-!
# What saving does to the files of a domain

A save writes the chain, then the key, then the record.  Where it stops decides which of the files
are new.  Nothing else that is done by a store is seen in them.
-/

namespace RegistryFront

def StoredCertificate.text (certificate : StoredCertificate) : Store.Part → String
  | .chain => certificate.chainPem
  | .key => certificate.keyPem
  | .record => certificate.record.write

structure StoredCertificate.ReadsAs (certificate found : StoredCertificate) : Prop where
  chainPem : found.chainPem = certificate.chainPem
  keyPem : found.keyPem = certificate.keyPem
  record : Store.Record.read certificate.record.write = .ok found.record

namespace Store

open Files

variable {store : Store} {root : Place} {domain : String}

/-! ## Actions elsewhere -/

def Elsewhere (store : Store) (domain : String) (action : Action) : Prop :=
  ∃ names, (∀ root disk, store.Keeps root disk → action.Stays disk root names) ∧
    ∀ part, ¬ action.Touches names (partPlace domain part)

theorem Confined.elsewhere {touched : List String → Prop} {action : Action}
    (h : store.Confined touched action) (hnot : ∀ part, ¬ touched (partPlace domain part)) :
    store.Elsewhere domain action := by
  obtain ⟨names, hstays, htouches⟩ := h
  exact ⟨names, hstays, fun part hpart => hnot part (htouches _ hpart)⟩

theorem Elsewhere.confined {action : Action} (h : store.Elsewhere domain action) :
    store.Confined (fun place => ∀ part, place ≠ partPlace domain part) action := by
  obtain ⟨names, hstays, htouches⟩ := h
  refine ⟨names, hstays, ?_⟩
  rintro place hplace part rfl
  exact htouches part hplace

theorem Keeps.applyStruck_elsewhere {disk : Disk} (h : store.Keeps root disk)
    (hdomain : Inner domain) {action : Action} (helsewhere : store.Elsewhere domain action)
    (mishap : Option Mishap) :
    store.Keeps root (action.applyStruck disk mishap).2 ∧
      store.shelf (action.applyStruck disk mishap).2 domain = store.shelf disk domain := by
  obtain ⟨names, hstays, htouches⟩ := helsewhere
  have hdevelops := h.tree.develops_applyStruck (hstays root disk h) mishap
  exact ⟨h.develops hdevelops, funext fun part => h.shelf_eq hdomain hdevelops (htouches part)⟩

theorem Keeps.performAll {drive : Drive} (h : store.Keeps root drive.disk) (hdomain : Inner domain)
    {actions : List Action} (helsewhere : ∀ action ∈ actions, store.Elsewhere domain action) :
    store.Keeps root (drive.performAll actions).2.disk ∧
      store.shelf (drive.performAll actions).2.disk domain = store.shelf drive.disk domain := by
  have hdevelops := h.develops_performAll fun action hmem => (helsewhere action hmem).confined
  exact ⟨h.develops hdevelops, funext fun part =>
    h.shelf_eq hdomain hdevelops fun hother => hother part rfl⟩

theorem elsewhere_setMode (path : String) (mode : Nat) :
    store.Elsewhere domain (.setMode path mode) :=
  ⟨[], fun _ _ _ => trivial, fun _ => id⟩

theorem elsewhere_makeDirectories {path : String} {names : List String}
    (hlies : store.Lies path names) (hinner : ".." ∉ names) (hnames : Disk.undot names ≠ [])
    (hlength : (Disk.undot names).length ≤ (Disk.undot (Path.parts domain)).length + 1)
    (mode : Nat) : store.Elsewhere domain (.makeDirectories path mode) := by
  refine (confined_makeDirectories hlies hinner hnames mode).elsewhere fun part hpart => ?_
  have hprefix := hpart.2.length_le
  simp only [partPlace, List.length_cons, List.length_append, List.length_nil] at hprefix
  omega

/-! ## Writes, one after the other -/

/-- A text for one of the files, or an action that is about none of them. -/
abbrev Entry := Option (Part × String)

def Shelf.put (shelf : Shelf) : Entry → Shelf
  | none => shelf
  | some (part, text) => Function.update shelf part (some (some (Text.Utf8.encode text)))

def Shelf.tried (shelf : Shelf) (entry : Entry) : Except FileError Unit → Shelf
  | .ok () => shelf.put entry
  | .error _ => shelf

/-- What there is when so many of the entries were made, the next one perhaps with no text yet. -/
def Shelf.left (shelf : Shelf) : List Entry → Nat → Bool → Shelf
  | [], _, _ => shelf
  | entry :: _, 0, cut => if cut then shelf.put (entry.map fun (part, _) => (part, "")) else shelf
  | entry :: rest, done + 1, cut => (shelf.put entry).left rest done cut

inductive Makes (store : Store) (domain : String) : Action → Entry → Prop where
  | part (part : Part) (mode : Nat) (text : String) :
      Makes store domain (.write (store.partPath domain part) mode (Text.Utf8.encode text))
        (some (part, text))
  | directories (mode : Nat) :
      Makes store domain (.makeDirectories (store.domainPath domain) mode) none
  | setMode (path : String) (mode : Nat) : Makes store domain (.setMode path mode) none

theorem Keeps.makes {disk after : Disk} (h : store.Keeps root disk) (hdomain : Inner domain)
    {action : Action} {entry : Entry} (hmakes : store.Makes domain action entry)
    {result : Except FileError Unit} (happly : action.apply disk = (result, after)) :
    store.Keeps root after ∧
      store.shelf after domain = (store.shelf disk domain).tried entry result := by
  cases hmakes with
  | part part mode text =>
      rw [Action.apply] at happly
      cases hwrite : disk.write (store.partPath domain part) mode (Text.Utf8.encode text) with
      | error =>
          rw [hwrite] at happly
          cases happly
          exact ⟨h, rfl⟩
      | ok written =>
          rw [hwrite] at happly
          cases happly
          exact h.shelf_write hdomain hwrite
  | directories mode =>
      have helsewhere : store.Elsewhere domain (.makeDirectories (store.domainPath domain) mode) :=
        elsewhere_makeDirectories (store.lies_domainPath hdomain) (by simp [hdomain.inside])
          (by simp [undot_domainNames]) (by simp [undot_domainNames]) mode
      have happlied := h.applyStruck_elsewhere hdomain helsewhere none
      rw [Action.applyStruck, happly] at happlied
      cases result <;> exact happlied
  | setMode path mode =>
      have happlied := h.applyStruck_elsewhere hdomain (elsewhere_setMode path mode) none
      rw [Action.applyStruck, happly] at happlied
      cases result <;> exact happlied

theorem Keeps.shelf_of_stops {disk after : Disk} {actions : List Action} {done : Nat} {cut : Bool}
    (hstops : Stops disk actions done cut after) (h : store.Keeps root disk)
    (hdomain : Inner domain) {entries : List Entry}
    (hmakes : List.Forall₂ (store.Makes domain) actions entries) :
    store.Keeps root after ∧
      store.shelf after domain = (store.shelf disk domain).left entries done cut := by
  -- an entry for each action: wherever the change stops, as many of both are done
  induction hstops generalizing entries with
  | here disk actions =>
      refine ⟨h, ?_⟩
      cases entries <;> rfl
  | failed happly =>
      cases hmakes with
      | cons hfirst _ => exact h.makes hdomain hfirst happly
  | emptied hwrite =>
      cases hmakes with
      | cons hfirst =>
          cases hfirst with
          | part => exact h.shelf_write hdomain hwrite
  | later happly _ ih =>
      cases hmakes with
      | cons hfirst hrest =>
          obtain ⟨hkeeps, hshelf⟩ := h.makes hdomain hfirst happly
          rw [Shelf.tried] at hshelf
          rw [Shelf.left, ← hshelf]
          exact ih hkeeps hrest

/-! ## A save -/

def saveEntries (certificate : StoredCertificate) : List Entry := [
  none,
  some (.chain, certificate.text .chain),
  some (.key, certificate.text .key),
  none,
  some (.record, certificate.text .record)]

theorem makes_saveActions (store : Store) (domain : String) (certificate : StoredCertificate) :
    List.Forall₂ (store.Makes domain) (store.saveActions domain certificate)
      (saveEntries certificate) :=
  .cons (.directories _) (.cons (.part .chain _ _) (.cons (.part .key _ _)
    (.cons (.setMode _ _) (.cons (.part .record _ _) .nil))))

def Shelf.ofTexts (text : Part → String) : Shelf :=
  fun part => some (some (Text.Utf8.encode (text part)))

theorem Shelf.update_ofTexts (text : Part → String) (part : Part) (new : String) :
    Function.update (Shelf.ofTexts text) part (some (some (Text.Utf8.encode new))) =
      Shelf.ofTexts (Function.update text part new) := by
  funext other
  by_cases hother : other = part
  · subst hother
    simp [Shelf.ofTexts]
  · simp [Shelf.ofTexts, Function.update_of_ne hother]

theorem Shelf.load_ofTexts (text : Part → String) :
    (Shelf.ofTexts text).load = match Record.read (text .record) with
      | .ok record => .ok (some ⟨text .chain, text .key, record⟩)
      | .error cause => .error (.record cause) := by
  cases hread : Record.read (text .record) with
  | ok => simp only [Shelf.load, Shelf.ofTexts, Disk.textOf, Text.Utf8.decode?_encode, hread]
  | error => simp only [Shelf.load, Shelf.ofTexts, Disk.textOf, Text.Utf8.decode?_encode, hread]

theorem Shelf.left_saved (shelf : Shelf) (certificate : StoredCertificate) :
    shelf.left (saveEntries certificate) 5 false = Shelf.ofTexts certificate.text := by
  funext part
  cases part <;> simp [Shelf.left, saveEntries, Shelf.put, Shelf.ofTexts, Function.update]

theorem ofFiles_eq_ok {α : Type} {result : Except FileError α × Drive} {value : α} {drive : Drive}
    (h : ofFiles result = (.ok value, drive)) : result = (.ok value, drive) := by
  obtain ⟨outcome, after⟩ := result
  cases outcome with
  | error => cases h
  | ok => cases h; rfl

theorem Keeps.shelf_after_save {drive : Drive} (h : store.Keeps root drive.disk)
    (hdomain : Inner domain) (certificate : StoredCertificate) :
    let (result, after) := store.save drive domain certificate
    store.Keeps root after.disk ∧
      (result = .ok () ∧ store.shelf after.disk domain = Shelf.ofTexts certificate.text ∨
      (∃ cause, result = .error cause) ∧ ∃ done < 5, ∃ cut,
        Stops drive.disk (store.saveActions domain certificate) done cut after.disk ∧
        store.shelf after.disk domain =
          (store.shelf drive.disk domain).left (saveEntries certificate) done cut) := by
  have hmakes := store.makes_saveActions domain certificate
  unfold save ofFiles
  rcases drive.performAll_stops (store.saveActions domain certificate) with
    ⟨hok, hstops⟩ | ⟨⟨cause, herror⟩, done, hdone, cut, hstops⟩
  · obtain ⟨hkeeps, hshelf⟩ := h.shelf_of_stops hstops hdomain hmakes
    exact ⟨hkeeps, .inl ⟨congrArg (Except.mapError StoreError.file) hok,
      hshelf.trans (Shelf.left_saved ..)⟩⟩
  · obtain ⟨hkeeps, hshelf⟩ := h.shelf_of_stops hstops hdomain hmakes
    exact ⟨hkeeps, .inr ⟨⟨.file cause, congrArg (Except.mapError StoreError.file) herror⟩, done,
      hdone, cut, hstops, hshelf⟩⟩

theorem Keeps.shelf_of_save {drive after : Drive} (h : store.Keeps root drive.disk)
    (hdomain : Inner domain) {certificate : StoredCertificate}
    (hsave : store.save drive domain certificate = (.ok (), after)) :
    store.Keeps root after.disk ∧
      store.shelf after.disk domain = Shelf.ofTexts certificate.text := by
  have hafter := h.shelf_after_save hdomain certificate
  rw [hsave] at hafter
  obtain ⟨hkeeps, ⟨-, hshelf⟩ | ⟨⟨cause, herror⟩, -⟩⟩ := hafter
  · exact ⟨hkeeps, hshelf⟩
  · cases herror

theorem Keeps.load_of_save {drive after : Drive} (h : store.Keeps root drive.disk)
    (hdomain : Inner domain) {certificate : StoredCertificate}
    (hsave : store.save drive domain certificate = (.ok (), after)) {record : Record}
    (hrecord : Record.read certificate.record.write = .ok record) :
    store.load after.disk domain = .ok (some { certificate with record := record }) := by
  rw [load_eq, (h.shelf_of_save hdomain hsave).2, Shelf.load_ofTexts]
  simp [StoredCertificate.text, hrecord]

theorem ok_of_toOption {ε α : Type} {result : Except ε α} {value : α}
    (h : result.toOption = some value) : result = .ok value := by
  cases result with
  | error => cases h
  | ok => exact congrArg Except.ok (Option.some.inj h)

theorem Record.read_empty : ∃ cause, Record.read "" = .error cause := ⟨_, rfl⟩

theorem Shelf.readsAs_of_load {certificate found : StoredCertificate}
    (h : (Shelf.ofTexts certificate.text).load = .ok (some found)) : certificate.ReadsAs found := by
  rw [Shelf.load_ofTexts] at h
  cases hrecord : Record.read (certificate.text .record) with
  | error => simp [hrecord] at h
  | ok record =>
      rw [hrecord] at h
      cases h
      exact ⟨rfl, rfl, hrecord⟩

/-! ## Openings and credentials -/

theorem elsewhere_openActions : ∀ action ∈ store.openActions, store.Elsewhere domain action := by
  intro action hmem
  refine (confined_openActions action hmem).elsewhere fun part hpart => ?_
  simp [OpenPlace, partPlace] at hpart

theorem elsewhere_saveCredentials (url text : String) :
    ∀ action ∈ secretActions (store.accountPath url) text, store.Elsewhere domain action := by
  intro action hmem
  refine (confined_account url text action hmem).elsewhere fun part hpart => ?_
  simp [accountPlace, partPlace] at hpart

theorem performAll_of_openAt {drive after : Drive} {opened : Except StoreError Store}
    (h : openAt store.basePath drive = (opened, after)) :
    (drive.performAll store.openActions).2 = after := by
  unfold openAt ofFiles at h
  exact congrArg Prod.snd h

theorem openAt_eq_ok {basePath : String} {drive after : Drive} {opened : Store}
    (h : openAt basePath drive = (.ok opened, after)) :
    opened = ⟨basePath⟩ ∧ drive.performAll (openActions ⟨basePath⟩) = (.ok (), after) := by
  unfold openAt ofFiles at h
  dsimp only at h
  rcases hperform : drive.performAll (openActions ⟨basePath⟩) with ⟨_ | _, last⟩ <;>
    rw [hperform] at h <;> cases h
  exact ⟨rfl, rfl⟩

/-! ## A store in the working directory -/

def acme : Store := ⟨"acme"⟩

def emptyAcme : Disk := ⟨[(["acme"], .directory 0o755)], []⟩

def openAcme (rest : List (Place × Node)) : Disk where
  entries :=
    (["acme"], .directory 0o700) :: (["acme", "accounts"], .directory 0o700) ::
    (["acme", "domains"], .directory 0o700) :: rest
  base := []

theorem acme_paths :
    acme.accountsPath = "acme/accounts" ∧ acme.domainsPath = "acme/domains" ∧
    acme.chainPath "d" = "acme/domains/d/cert.pem" ∧ acme.keyPath "d" = "acme/domains/d/key.pem" ∧
    acme.recordPath "d" = "acme/domains/d/meta.json" ∧
    Disk.withParents "acme/accounts" = ["acme/accounts", "acme"] ∧
    Disk.withParents "acme/domains" = ["acme/domains", "acme"] ∧
    Disk.withParents (acme.domainPath "d") = ["acme/domains/d", "acme/domains", "acme"] := by
  decide

theorem acme_parts :
    Path.parts "acme" = ["acme"] ∧ Path.parts "acme/accounts" = ["acme", "accounts"] ∧
    Path.parts "acme/domains" = ["acme", "domains"] ∧
    Path.parts "acme/domains/d" = ["acme", "domains", "d"] ∧
    Path.parts "acme/domains/d/cert.pem" = ["acme", "domains", "d", "cert.pem"] ∧
    Path.parts "acme/domains/d/key.pem" = ["acme", "domains", "d", "key.pem"] ∧
    Path.parts "acme/domains/d/meta.json" = ["acme", "domains", "d", "meta.json"] := by
  decide

theorem acme_sizes :
    (∀ path ∈ ["acme", "acme/accounts", "acme/domains", "acme/domains/d", "acme/domains/d/cert.pem",
        "acme/domains/d/key.pem", "acme/domains/d/meta.json"],
      Path.isAbsolute path = false ∧ Path.endsInSlash path = false ∧
        Text.Utf8.size path ≤ Disk.maxPath) ∧
    ∀ name ∈ ["acme", "accounts", "domains", "d", "cert.pem", "key.pem", "meta.json"],
      Text.Utf8.size name ≤ Disk.maxName := by
  decide

theorem emptyAt_acme : acme.EmptyAt ["acme"] emptyAcme := by
  obtain ⟨hpaths, hnames⟩ := acme_sizes
  simp only [List.forall_mem_cons] at hpaths hnames
  have hfind : emptyAcme.find "acme" = .ok (["acme"], .directory 0o755) := by
    simp [Disk.find, Disk.locate, Disk.walk, Disk.node?, Nat.not_lt.mpr, bind, Except.bind,
      emptyAcme, acme_parts, hpaths, hnames]
  refine ⟨⟨0o755, hfind⟩, fun names hnames => ?_⟩
  cases names with
  | nil => exact absurd rfl hnames
  | cons => simp [emptyAcme, Disk.node?, List.lookup_cons]

theorem openAt_acme : openAt "acme" (.ofDisk emptyAcme) = (.ok acme, .ofDisk (openAcme [])) := by
  obtain ⟨hpaths, hnames⟩ := acme_sizes
  simp only [List.forall_mem_cons] at hpaths hnames
  have hstore : (⟨"acme"⟩ : Store) = acme := rfl
  simp [openAt, hstore, openActions, ofFiles, Drive.performAll, Drive.perform, Drive.ofDisk,
    Action.applyStruck, Action.apply, keeping, Disk.makeDirectories, Disk.makeDirectoriesOf,
    Disk.makeDirectory, Disk.setMode, Disk.find, Disk.locate, Disk.walk, Disk.node?, Disk.put,
    List.lookup_cons, Nat.not_lt.mpr, bind, Except.bind, Except.mapError, Except.map, emptyAcme,
    openAcme, acme_paths, acme_parts, hpaths, hnames]

/-! ### An account and a certificate in it -/

def directoryUrl : String := "https://ca.example/directory"

theorem accountPath_directoryUrl :
    acme.accountPath directoryUrl = "acme/accounts/0d5eb258bf2bed96.json" := by
  have hname : accountName directoryUrl = "0d5eb258bf2bed96" := by decide +kernel
  rw [accountPath, hname]
  decide

theorem acme_account :
    Path.parts "acme/accounts/0d5eb258bf2bed96.json" =
      ["acme", "accounts", "0d5eb258bf2bed96.json"] ∧
    Path.isAbsolute "acme/accounts/0d5eb258bf2bed96.json" = false ∧
    Path.endsInSlash "acme/accounts/0d5eb258bf2bed96.json" = false ∧
    Text.Utf8.size "acme/accounts/0d5eb258bf2bed96.json" ≤ Disk.maxPath ∧
    Text.Utf8.size "0d5eb258bf2bed96.json" ≤ Disk.maxName := by
  decide

def accountEntry (text : String) : Place × Node :=
  (["acme", "accounts", "0d5eb258bf2bed96.json"], .file 0o600 (Text.Utf8.encode text))

theorem loadCredentials_openAcme :
    acme.loadCredentials (openAcme []) directoryUrl = .ok none := by
  obtain ⟨-, hnames⟩ := acme_sizes
  simp only [List.forall_mem_cons] at hnames
  have hmissing : (openAcme []).pathExists "acme/accounts/0d5eb258bf2bed96.json" = false := by
    simp [Disk.pathExists, Disk.find, Disk.locate, Disk.walk, Disk.node?, List.lookup_cons,
      Nat.not_lt.mpr, bind, Except.bind, Except.isOk, Except.toBool, openAcme, acme_account, hnames]
  rw [loadCredentials, accountPath_directoryUrl]
  simp only [hmissing, Bool.false_eq_true, if_false]

theorem saveCredentials_openAcme (text : String) :
    acme.saveCredentials (.ofDisk (openAcme [])) directoryUrl text =
      (.ok (), .ofDisk (openAcme [accountEntry text])) := by
  obtain ⟨-, hnames⟩ := acme_sizes
  simp only [List.forall_mem_cons] at hnames
  rw [saveCredentials, accountPath_directoryUrl]
  simp [ofFiles, secretActions, Drive.performAll, Drive.perform, Drive.ofDisk, Action.applyStruck,
    Action.apply, keeping, Disk.write, Disk.setMode, Disk.find, Disk.locate, Disk.walk, Disk.node?,
    Disk.put, List.lookup_cons, Nat.not_lt.mpr, bind, Except.bind, Except.mapError, openAcme,
    accountEntry, acme_account, hnames]

theorem save_openAcme (text : String) (certificate : StoredCertificate) :
    ∃ drive, acme.save (.ofDisk (openAcme [accountEntry text])) "d" certificate =
      (.ok (), drive) := by
  obtain ⟨hpaths, hnames⟩ := acme_sizes
  simp only [List.forall_mem_cons] at hpaths hnames
  refine ⟨_, Prod.ext_iff.mpr ⟨?_, rfl⟩⟩
  simp [save, ofFiles, saveActions, secretActions, Drive.performAll, Drive.perform, Drive.ofDisk,
    Action.applyStruck, Action.apply, keeping, Disk.makeDirectories, Disk.makeDirectoriesOf,
    Disk.makeDirectory, Disk.write, Disk.setMode, Disk.find, Disk.locate, Disk.walk, Disk.node?,
    Disk.put, List.lookup_cons, Nat.not_lt.mpr, bind, Except.bind, Except.mapError, openAcme,
    accountEntry, acme_paths, acme_parts, hpaths, hnames]

end Store

end RegistryFront
