import RegistryFront.Proofs.Store.Saving

/-!
# Saves that stop

A save over nothing leaves nothing to be found until the record is written.  A save over a
certificate that stops on the way leaves new files beside old ones, and they are found together.
-/

namespace RegistryFront

open Files

/-- What is found of an old certificate when the save of a new one has stopped: the chain is emptied
first, then written, then likewise the key. -/
def StoredCertificate.stopped (old new : StoredCertificate) : Nat → Bool → StoredCertificate
  | 0, _ => old
  | 1, false => old
  | 1, true => { old with chainPem := "" }
  | 2, false => { old with chainPem := new.chainPem }
  | 2, true => { old with chainPem := new.chainPem, keyPem := "" }
  | _, _ => { old with chainPem := new.chainPem, keyPem := new.keyPem }

namespace Store

variable {store : Store} {root : Place}

/-! ## Stores that are in order -/

/-- What becomes of an empty directory when the store is opened in it and what is saved is saved
without a fault. -/
inductive Reached (store : Store) (root : Place) : Disk → Prop where
  | empty {disk : Disk} (h : store.EmptyAt root disk) : Reached store root disk
  | opened {disk : Disk} {drive : Drive} (h : Reached store root disk)
      (hopen : openAt store.basePath (.ofDisk disk) = (.ok store, drive)) :
      Reached store root drive.disk
  | account {disk : Disk} {drive : Drive} {url text : String} (h : Reached store root disk)
      (hsave : store.saveCredentials (.ofDisk disk) url text = (.ok (), drive)) :
      Reached store root drive.disk
  | saved {disk : Disk} {drive : Drive} {domain : String} {certificate : StoredCertificate}
      (h : Reached store root disk) (hdomain : Plain domain)
      (hsave : store.save (.ofDisk disk) domain certificate = (.ok (), drive)) :
      Reached store root drive.disk

theorem not_certificatePlace {domain other : String} (hdomain : Plain domain)
    (hother : Plain other) (hne : domain ≠ other) (part : Part) :
    ¬ CertificatePlace other (partPlace domain part) := by
  simp only [CertificatePlace, Disk.OnTheWay, partPlace, hdomain.parts, hother.parts,
    Disk.undot_cons hdomain.ne_dot, Disk.undot_cons hother.ne_dot, Disk.undot_nil]
  rintro (⟨-, hprefix⟩ | ⟨theirs, hplace⟩)
  · simp at hprefix
  · simp only [List.cons_append, List.nil_append, List.cons.injEq] at hplace
    exact hne hplace.2.1

theorem elsewhere_save {domain other : String} (hdomain : Plain domain) (hother : Plain other)
    (hne : domain ≠ other) (certificate : StoredCertificate) :
    ∀ action ∈ store.saveActions other certificate, store.Elsewhere domain action :=
  fun action hmem => (confined_saveActions hother.inner certificate action hmem).elsewhere
    (not_certificatePlace hdomain hother hne)

/-! ## What the files of a domain are then -/

def Shelf.Whole (shelf : Shelf) : Prop :=
  (∀ part, shelf part = none) ∨ ∃ text, shelf = .ofTexts text

theorem Reached.keeps_and_whole {disk : Disk} (h : store.Reached root disk) {domain : String}
    (hdomain : Plain domain) :
    store.Keeps root disk ∧ (store.shelf disk domain).Whole := by
  induction h with
  | empty h => exact ⟨h.keeps, .inl fun part => h.shelf_eq hdomain.inner part⟩
  | @opened disk _ _ hopen ih =>
      have hbefore : store.Keeps root (Drive.ofDisk disk).disk := ih.1
      obtain ⟨hkeeps, hshelf⟩ := hbefore.performAll hdomain.inner elsewhere_openActions
      rw [performAll_of_openAt hopen] at hkeeps hshelf
      exact ⟨hkeeps, by rw [hshelf]; exact ih.2⟩
  | @account disk _ _ _ _ hsave ih =>
      have hbefore : store.Keeps root (Drive.ofDisk disk).disk := ih.1
      obtain ⟨hkeeps, hshelf⟩ := hbefore.performAll hdomain.inner (elsewhere_saveCredentials _ _)
      rw [ofFiles_eq_ok hsave] at hkeeps hshelf
      exact ⟨hkeeps, by rw [hshelf]; exact ih.2⟩
  | @saved disk drive other certificate _ hother hsave ih =>
      have hbefore : store.Keeps root (Drive.ofDisk disk).disk := ih.1
      by_cases hsame : domain = other
      · subst hsame
        obtain ⟨hkeeps, hshelf⟩ := hbefore.shelf_of_save hdomain.inner hsave
        exact ⟨hkeeps, .inr ⟨certificate.text, hshelf⟩⟩
      · -- what is saved for another domain is elsewhere
        obtain ⟨hkeeps, hshelf⟩ := hbefore.performAll hdomain.inner
          (elsewhere_save hdomain hother hsame certificate)
        rw [ofFiles_eq_ok hsave] at hkeeps hshelf
        exact ⟨hkeeps, by rw [hshelf]; exact ih.2⟩

/-! ## What is found then -/

theorem Shelf.Whole.load_left {shelf : Shelf} (h : shelf.Whole) {before : Option StoredCertificate}
    (hbefore : shelf.load = .ok before) (new : StoredCertificate) {done : Nat} (hdone : done < 5)
    {cut : Bool} :
    (done = 4 ∧ cut = true →
      ∃ cause, (shelf.left (saveEntries new) done cut).load = .error (.record cause)) ∧
    (¬ (done = 4 ∧ cut = true) → (shelf.left (saveEntries new) done cut).load =
      .ok (before.map fun old => old.stopped new done cut)) := by
  obtain ⟨cause, hcause⟩ := Record.read_empty
  have hstages : done = 0 ∨ done = 1 ∨ done = 2 ∨ done = 3 ∨ done = 4 := by omega
  rcases h with hnone | ⟨text, rfl⟩
  · obtain rfl : shelf = fun _ => none := funext hnone
    cases hbefore
    rcases hstages with rfl | rfl | rfl | rfl | rfl <;> cases cut <;>
      simp [saveEntries, Shelf.left, Shelf.put, Shelf.load, Disk.textOf, hcause]
  · rw [Shelf.load_ofTexts] at hbefore
    cases hrecord : Record.read (text .record) with
    | error => simp [hrecord] at hbefore
    | ok record =>
        obtain rfl : some ⟨text .chain, text .key, record⟩ = before := by
          simpa [hrecord] using hbefore
        -- at each stage the old record is still there to be read, unless it was emptied
        rcases hstages with rfl | rfl | rfl | rfl | rfl <;> cases cut <;>
          simp [saveEntries, Shelf.left, Shelf.put, Shelf.update_ofTexts, Shelf.load_ofTexts,
            hrecord, hcause, StoredCertificate.stopped, StoredCertificate.text]

theorem Reached.load_of_stops {disk after : Disk} (hreached : store.Reached root disk)
    {domain : String} (hdomain : Plain domain) {before : Option StoredCertificate}
    (hbefore : store.load disk domain = .ok before) {new : StoredCertificate} {done : Nat}
    {cut : Bool} (hstops : Stops disk (store.saveActions domain new) done cut after)
    (hdone : done < (store.saveActions domain new).length) :
    (done = 4 ∧ cut = true → ∃ cause, store.load after domain = .error (.record cause)) ∧
    (¬ (done = 4 ∧ cut = true) →
      store.load after domain = .ok (before.map fun old => old.stopped new done cut)) := by
  obtain ⟨hkeeps, hwhole⟩ := hreached.keeps_and_whole hdomain
  obtain ⟨-, hshelf⟩ :=
    hkeeps.shelf_of_stops hstops hdomain.inner (store.makes_saveActions domain new)
  rw [load_eq] at hbefore
  rw [load_eq, hshelf]
  exact hwhole.load_left hbefore new hdone

/-- What was found before, nothing, or the whole of the new certificate. -/
def Unmixed (before : Option StoredCertificate) (new : StoredCertificate)
    (found : Except StoreError (Option StoredCertificate)) : Prop :=
  found = .ok before ∨ found = .ok none ∨
    ∃ whole, new.ReadsAs whole ∧ found = .ok (some whole)

/-- A save stops before its end, in a store that was in order.  Nothing is mixed up if nothing was
there, or where what has been written so far makes no difference; but a record that was emptied
cannot be read.  Nothing but the save fails here: what is there can be looked up and read. -/
theorem unmixed_load_iff {disk after : Disk} (hreached : store.Reached root disk) {domain : String}
    (hdomain : Plain domain) {before : Option StoredCertificate}
    (hbefore : store.load disk domain = .ok before) {new : StoredCertificate} {done : Nat}
    {cut : Bool} (hstops : Stops disk (store.saveActions domain new) done cut after)
    (hdone : done < (store.saveActions domain new).length) :
    Unmixed before new (store.load after domain) ↔
      ¬ (done = 4 ∧ cut = true) ∧ ∀ old, before = some old →
        old.stopped new done cut = old ∨ new.ReadsAs (old.stopped new done cut) := by
  obtain ⟨hcut, hfound⟩ := hreached.load_of_stops hdomain hbefore hstops hdone
  by_cases hemptied : done = 4 ∧ cut = true
  · obtain ⟨cause, hcause⟩ := hcut hemptied
    rw [hcause]
    refine ⟨?_, fun h => absurd hemptied h.1⟩
    rintro (h | h | ⟨_, -, h⟩) <;> cases h
  · rw [hfound hemptied]
    cases before with
    | none => simp [Unmixed, hemptied]
    | some old => simp [Unmixed, hemptied]

/-! ### A renewal that stops between the chain and the key -/

private def acmeWith (chain key record : String) : Disk where
  entries := [
    (["acme"], .directory 0o755),
    (["acme", "domains"], .directory 0o755),
    (["acme", "domains", "d"], .directory 0o755),
    (["acme", "domains", "d", "cert.pem"], .file 0o644 (Text.Utf8.encode chain)),
    (["acme", "domains", "d", "key.pem"], .file 0o600 (Text.Utf8.encode key)),
    (["acme", "domains", "d", "meta.json"], .file 0o644 (Text.Utf8.encode record))]
  base := []

private theorem acme_save (certificate : StoredCertificate) :
    acme.save (.ofDisk emptyAcme) "d" certificate =
      (.ok (),
        .ofDisk (acmeWith certificate.chainPem certificate.keyPem certificate.record.write)) := by
  obtain ⟨hpaths, hnames⟩ := acme_sizes
  simp only [List.forall_mem_cons] at hpaths hnames
  simp [save, ofFiles, saveActions, secretActions, Drive.performAll, Drive.perform, Drive.ofDisk,
    Action.applyStruck, Action.apply, keeping, Disk.makeDirectories, Disk.makeDirectoriesOf,
    Disk.makeDirectory, Disk.write, Disk.setMode, Disk.find, Disk.locate, Disk.walk, Disk.node?,
    Disk.put, List.lookup_cons, Nat.not_lt.mpr, bind, Except.bind, Except.mapError, emptyAcme,
    acmeWith, acme_paths, acme_parts, hpaths, hnames]

theorem plain_d : Plain "d" := ⟨⟨by decide, by decide⟩, by decide, by decide⟩

private theorem acme_reached (certificate : StoredCertificate) :
    acme.Reached ["acme"]
      (acmeWith certificate.chainPem certificate.keyPem certificate.record.write) :=
  .saved (.empty emptyAt_acme) plain_d (acme_save certificate)

private theorem acme_stops (certificate new : StoredCertificate) :
    Stops (acmeWith certificate.chainPem certificate.keyPem certificate.record.write)
      (acme.saveActions "d" new) 2 false
      (acmeWith new.chainPem certificate.keyPem certificate.record.write) := by
  obtain ⟨hpaths, hnames⟩ := acme_sizes
  simp only [List.forall_mem_cons] at hpaths hnames
  have hmade : (Action.makeDirectories (acme.domainPath "d") 0o755).apply
      (acmeWith certificate.chainPem certificate.keyPem certificate.record.write) =
        (.ok (), acmeWith certificate.chainPem certificate.keyPem certificate.record.write) := by
    simp [Action.apply, Disk.makeDirectories, Disk.makeDirectoriesOf, Disk.makeDirectory,
      Disk.isDirectory, Disk.find, Disk.locate, Disk.walk, Disk.node?, List.lookup_cons,
      Nat.not_lt.mpr, bind, Except.bind, acmeWith, acme_paths, acme_parts, hpaths, hnames,
      Errno.alreadyExists, Errno.noEntry]
  have hwritten : (Action.write (acme.chainPath "d") 0o644 (Text.Utf8.encode new.chainPem)).apply
      (acmeWith certificate.chainPem certificate.keyPem certificate.record.write) =
        (.ok (), acmeWith new.chainPem certificate.keyPem certificate.record.write) := by
    simp [Action.apply, keeping, Disk.write, Disk.locate, Disk.walk, Disk.node?, Disk.put,
      List.lookup_cons, Nat.not_lt.mpr, bind, Except.bind, acmeWith, acme_paths, acme_parts, hpaths,
      hnames]
  exact .later hmade (.later hwritten (.here ..))

def oldCertificate : StoredCertificate :=
  ⟨"old chain", "old key", ⟨.epoch, .epoch, ["d"], none⟩⟩

private def newCertificate : StoredCertificate :=
  ⟨"new chain", "new key", ⟨.epoch, .epoch, ["d"], some "url"⟩⟩

private theorem read_oldCertificate :
    Record.read oldCertificate.record.write = .ok oldCertificate.record :=
  ok_of_toOption (by decide +kernel)

private theorem acme_load : acme.load
    (acmeWith oldCertificate.chainPem oldCertificate.keyPem oldCertificate.record.write) "d" =
      .ok (some oldCertificate) :=
  emptyAt_acme.keeps.load_of_save plain_d.inner (acme_save oldCertificate)
    read_oldCertificate

private theorem not_readsAs :
    ¬ newCertificate.ReadsAs (oldCertificate.stopped newCertificate 2 false) :=
  fun h => absurd h.keyPem (by decide)

theorem unmixed_load_renewal :
    acme.Reached ["acme"]
      (acmeWith oldCertificate.chainPem oldCertificate.keyPem oldCertificate.record.write) ∧
    ¬ Unmixed (some oldCertificate) newCertificate (acme.load
      (acmeWith newCertificate.chainPem oldCertificate.keyPem oldCertificate.record.write)
      "d") := by
  have hiff := unmixed_load_iff (acme_reached oldCertificate) plain_d acme_load
    (acme_stops oldCertificate newCertificate) (by decide)
  refine ⟨acme_reached oldCertificate, fun h => ?_⟩
  rcases (hiff.mp h).2 oldCertificate rfl with hsame | hwhole
  · exact absurd hsame (by decide)
  · exact not_readsAs hwhole

/-- The new chain is found with the old key. -/
theorem not_unmixed_load :
    ¬ ∀ (store : Store) (root : Place) (disk after : Disk) (domain : String)
      (before : Option StoredCertificate) (new : StoredCertificate) (done : Nat) (cut : Bool),
      store.Reached root disk → Plain domain → store.load disk domain = .ok before →
      Stops disk (store.saveActions domain new) done cut after →
      done < (store.saveActions domain new).length →
      Unmixed before new (store.load after domain) := by
  intro h
  have hreached := acme_reached oldCertificate
  have hstops := acme_stops oldCertificate newCertificate
  have hfound := (hreached.load_of_stops plain_d acme_load hstops (by decide)).2 (by decide)
  have hunmixed := h acme _ _ _ "d" _ newCertificate 2 false hreached plain_d acme_load hstops
    (by decide)
  rw [hfound] at hunmixed
  rcases hunmixed with hsame | hnone | ⟨whole, hwhole, hfound⟩
  · exact absurd (Except.ok.inj hsame) (by decide)
  · cases hnone
  · cases hfound
    exact not_readsAs hwhole

end Store

end RegistryFront
