import RegistryFront.Proofs.Store.Record
import RegistryFront.Proofs.Store.StoppedSave

/-!
# The store as two maps

Whatever is saved in a store that was empty in the beginning, for a domain the certificate that was
saved last for it is found, and for an authority the text that was saved last.
-/

namespace RegistryFront.Store

open Files

inductive Deed where
  | opening
  | certificate (domain : String) (certificate : StoredCertificate)
  | credentials (directoryUrl text : String)

namespace Deed

def perform (store : Store) (drive : Drive) : Deed → Except StoreError Unit × Drive
  | .opening =>
      let (opened, drive) := openAt store.basePath drive
      (opened.map fun _ => (), drive)
  | .certificate domain new => store.save drive domain new
  | .credentials directoryUrl text => store.saveCredentials drive directoryUrl text

def certificateFor (domain : String) : Deed → Option StoredCertificate
  | .certificate other new => if other = domain then some new else none
  | _ => none

def textFor (directoryUrl : String) : Deed → Option String
  | .credentials other text => if other = directoryUrl then some text else none
  | _ => none

def Proper : Deed → Prop
  | .certificate domain _ => Plain domain
  | _ => True

def digestStart (directoryUrl : String) : List UInt8 :=
  (Digest.sha256 (Text.Utf8.encode directoryUrl)).take 8

/-- The deed is about the file of an account whose authority has this start of a digest. -/
def AboutAccount (start : List UInt8) : Deed → Prop
  | .credentials directoryUrl _ => digestStart directoryUrl = start
  | _ => False

end Deed

inductive Done (store : Store) : Drive → List Deed → Drive → Prop where
  | begun (drive : Drive) : Done store drive [] drive
  | next {drive middle after : Drive} {deeds : List Deed} {deed : Deed}
      (h : Done store drive deeds middle) (hdeed : deed.perform store middle = (.ok (), after)) :
      Done store drive (deeds ++ [deed]) after

def lastCertificate (domain : String) (deeds : List Deed) : Option StoredCertificate :=
  (deeds.filterMap (·.certificateFor domain)).getLast?

def lastText (directoryUrl : String) (deeds : List Deed) : Option String :=
  (deeds.filterMap (·.textFor directoryUrl)).getLast?

/-! ## What a deed changes -/

variable {store : Store} {root : Place}

namespace Deed

def actions (store : Store) : Deed → List Action
  | .opening => store.openActions
  | .certificate domain new => store.saveActions domain new
  | .credentials directoryUrl text => secretActions (store.accountPath directoryUrl) text

def Touches : Deed → List String → Prop
  | .opening => OpenPlace
  | .certificate domain _ => CertificatePlace domain
  | .credentials directoryUrl _ => (· = accountPlace directoryUrl)

theorem perform_snd (deed : Deed) (drive : Drive) :
    (deed.perform store drive).2 = (drive.performAll (deed.actions store)).2 := by
  cases deed <;> rfl

theorem confined {deed : Deed} (hproper : deed.Proper) :
    ∀ action ∈ deed.actions store, store.Confined deed.Touches action := by
  cases deed with
  | opening => exact confined_openActions
  | certificate domain new => exact confined_saveActions hproper.inner new
  | credentials url text => exact confined_account url text

end Deed

section

variable {drive : Drive} {deed : Deed}

theorem Keeps.develops_deed (h : store.Keeps root drive.disk) (hproper : deed.Proper) :
    Disk.Develops root deed.Touches drive.disk (deed.perform store drive).2.disk := by
  rw [deed.perform_snd]
  exact h.develops_performAll (Deed.confined hproper)

theorem Keeps.shelf_of_deed (h : store.Keeps root drive.disk) (hproper : deed.Proper)
    {domain : String} (hdomain : Plain domain) (hother : deed.certificateFor domain = none) :
    store.shelf (deed.perform store drive).2.disk domain = store.shelf drive.disk domain := by
  refine funext fun part => h.shelf_eq hdomain.inner (h.develops_deed hproper) ?_
  cases deed with
  | opening => simp [Deed.Touches, OpenPlace, partPlace]
  | credentials url text => simp [Deed.Touches, accountPlace, partPlace]
  | certificate other new =>
      refine not_certificatePlace hdomain hproper (fun heq => ?_) part
      simp [Deed.certificateFor, heq] at hother

theorem accountFile_inj {url other : String} (h : accountFile url = accountFile other) :
    Deed.digestStart url = Deed.digestStart other :=
  Text.Hex.encode_injective ((String.append_left_inj ".json").mp h)

theorem Keeps.account_of_deed (h : store.Keeps root drive.disk) (hproper : deed.Proper)
    {url : String} (hother : ¬ deed.AboutAccount (Deed.digestStart url)) :
    (deed.perform store drive).2.disk.view (store.accountPath url) =
      drive.disk.view (store.accountPath url) := by
  refine (h.develops_deed hproper).view_eq h.tree (h.accountNames url) ?_
  rw [undot_accountPlace]
  cases deed with
  | opening => simp [Deed.Touches, OpenPlace, accountPlace]
  | certificate domain new =>
      simp [Deed.Touches, CertificatePlace, Disk.OnTheWay, accountPlace, partPlace]
  | credentials other text =>
      intro heq
      have hfile : accountFile url = accountFile other := by
        simpa [Deed.Touches, accountPlace] using heq
      exact hother (accountFile_inj hfile).symm

theorem view_of_secretActions {disk after : Disk} {path text : String} {names : List String}
    (htree : disk.Tree root) (hnames : disk.Names root path names)
    (hstops : Stops disk (secretActions path text) 2 false after) :
    after.view path = some (some (Text.Utf8.encode text)) := by
  rcases hstops with _ | _ | _ | ⟨hwrite, hrest⟩
  rcases hrest with _ | _ | _ | ⟨hmode, hend⟩
  cases hend
  have hwritten := ok_of_keeping hwrite
  obtain ⟨hdevelops, -⟩ := htree.develops_write hnames.below hnames.inner hnames.ne_nil hwritten
  have hset := hdevelops.tree.develops_setMode (ok_of_keeping hmode)
  rw [hset.view_eq hdevelops.tree (hdevelops.grows.names hnames) id]
  exact htree.view_write hnames hwritten

theorem Keeps.account_of_saveCredentials (h : store.Keeps root drive.disk) {after : Drive}
    {url text : String} (hsave : store.saveCredentials drive url text = (.ok (), after)) :
    after.disk.view (store.accountPath url) = some (some (Text.Utf8.encode text)) := by
  have hstops := Drive.stops_of_performAll (ofFiles_eq_ok hsave)
  exact view_of_secretActions h.tree (h.accountNames url) hstops

theorem Keeps.load_of_saved (h : store.Keeps root drive.disk) {after : Drive} {domain : String}
    (hdomain : Plain domain) {certificate : StoredCertificate}
    (hsave : store.save drive domain certificate = (.ok (), after)) :
    store.load after.disk domain = .ok (some certificate) :=
  h.load_of_save hdomain.inner hsave (Record.read_write certificate.record)

end

/-! ## What is found after all deeds -/

theorem getLast?_filterMap_append {α β : Type} (f : α → Option β) (deeds : List α) (deed : α) :
    ((deeds ++ [deed]).filterMap f).getLast? = (f deed).or (deeds.filterMap f).getLast? := by
  cases hdeed : f deed <;> simp [hdeed]

section

variable {drive after : Drive} {deeds : List Deed}

theorem Done.keeps (h : store.Done drive deeds after) (hkeeps : store.Keeps root drive.disk)
    (hproper : ∀ deed ∈ deeds, deed.Proper) : store.Keeps root after.disk := by
  induction h with
  | begun => exact hkeeps
  | @next middle after deeds deed h hdeed ih =>
      have hmiddle := ih fun deed hmem => hproper deed (List.mem_append_left _ hmem)
      have hdevelops := hmiddle.develops_deed (hproper deed (by simp))
      rw [hdeed] at hdevelops
      exact hmiddle.develops hdevelops

theorem Done.load_eq (h : store.Done drive deeds after) (hempty : store.EmptyAt root drive.disk)
    (hproper : ∀ deed ∈ deeds, deed.Proper) {domain : String} (hdomain : Plain domain) :
    store.load after.disk domain = .ok (lastCertificate domain deeds) := by
  induction h with
  | begun =>
      rw [Store.load_eq, funext fun part => hempty.shelf_eq hdomain.inner part]
      rfl
  | @next middle after deeds deed h hdeed ih =>
      have hproper' := fun deed hmem => hproper deed (List.mem_append_left _ hmem)
      have hmiddle := h.keeps hempty.keeps hproper'
      -- the last deed is a save for the domain, or it leaves the files of the domain alone
      rw [lastCertificate, getLast?_filterMap_append]
      cases hfor : deed.certificateFor domain with
      | none =>
          have hshelf := hmiddle.shelf_of_deed (hproper deed (by simp)) hdomain hfor
          rw [hdeed] at hshelf
          rw [Store.load_eq, hshelf, ← Store.load_eq]
          exact ih hproper'
      | some certificate =>
          cases deed with
          | certificate other new =>
              obtain ⟨rfl, rfl⟩ : other = domain ∧ new = certificate := by
                simpa [Deed.certificateFor] using hfor
              exact hmiddle.load_of_saved hdomain hdeed
          | opening => cases hfor
          | credentials => cases hfor

theorem Done.loadCredentials_eq (h : store.Done drive deeds after)
    (hempty : store.EmptyAt root drive.disk) (hproper : ∀ deed ∈ deeds, deed.Proper) {url : String}
    (hapart : ∀ deed ∈ deeds, deed.AboutAccount (Deed.digestStart url) → deed.textFor url ≠ none) :
    store.loadCredentials after.disk url = .ok (lastText url deeds) := by
  induction h with
  | begun =>
      refine loadCredentials_of_none ?_
      cases hview : drive.disk.view (store.accountPath url) with
      | none => rfl
      | some content =>
          have hsight :=
            ((hempty.keeps.tree.view_eq_some_iff (hempty.keeps.accountNames url)).mp hview).2
          rw [Disk.sight, undot_accountPlace, hempty.empty _ (by simp [accountPlace])] at hsight
          cases hsight
  | @next middle after deeds deed h hdeed ih =>
      have hproper' := fun deed hmem => hproper deed (List.mem_append_left _ hmem)
      have hmiddle := h.keeps hempty.keeps hproper'
      have hlast := hapart deed (by simp)
      rw [lastText, getLast?_filterMap_append]
      cases hfor : deed.textFor url with
      | none =>
          have hview := hmiddle.account_of_deed (hproper deed (by simp))
            fun habout => hlast habout hfor
          rw [hdeed] at hview
          rw [loadCredentials_congr hview]
          exact ih hproper' fun deed hmem => hapart deed (List.mem_append_left _ hmem)
      | some text =>
          cases deed with
          | credentials other new =>
              obtain ⟨rfl, rfl⟩ : other = url ∧ new = text := by
                simpa [Deed.textFor] using hfor
              exact loadCredentials_of_text (hmiddle.account_of_saveCredentials hdeed)
          | opening => cases hfor
          | certificate => cases hfor

end

/-- In a store that was empty, the last certificate of each domain and the last text of each authority
are found, and a deed changes nothing that is found for others, whether it succeeds or not.  Mishaps
strike deeds; to look up and to read what is there never fails. -/
theorem found_of_done {drive after : Drive} {deeds : List Deed}
    (hempty : store.EmptyAt root drive.disk) (hdone : store.Done drive deeds after)
    (hproper : ∀ deed ∈ deeds, deed.Proper) :
    (∀ domain, Plain domain →
      store.load after.disk domain = .ok (lastCertificate domain deeds)) ∧
    (∀ url, (∀ other text, .credentials other text ∈ deeds →
        Deed.digestStart other = Deed.digestStart url → other = url) →
      store.loadCredentials after.disk url = .ok (lastText url deeds)) ∧
    ∀ deed : Deed, deed.Proper →
      (∀ domain, Plain domain → deed.certificateFor domain = none →
        store.load (deed.perform store after).2.disk domain = store.load after.disk domain) ∧
      ∀ url, ¬ deed.AboutAccount (Deed.digestStart url) →
        store.loadCredentials (deed.perform store after).2.disk url =
          store.loadCredentials after.disk url := by
  have hkeeps := hdone.keeps hempty.keeps hproper
  refine ⟨fun domain hdomain => hdone.load_eq hempty hproper hdomain, fun url hapart => ?_,
    fun deed hdeed => ⟨fun domain hdomain hother => ?_, fun url hother => ?_⟩⟩
  · refine hdone.loadCredentials_eq hempty hproper fun deed hmem habout => ?_
    cases deed with
    | credentials other text => simp [Deed.textFor, hapart other text hmem habout]
    | opening => exact habout.elim
    | certificate => exact habout.elim
  · rw [Store.load_eq, Store.load_eq, hkeeps.shelf_of_deed hdeed hdomain hother]
  · exact loadCredentials_congr (hkeeps.account_of_deed hdeed hother)

theorem found_of_done_acme :
    ∃ after, acme.Done (.ofDisk emptyAcme)
      [.opening, .credentials directoryUrl "text", .certificate "d" oldCertificate] after ∧
      acme.load after.disk "d" = .ok (some oldCertificate) ∧
      acme.loadCredentials after.disk directoryUrl = .ok (some "text") := by
  obtain ⟨after, hsave⟩ := save_openAcme "text" oldCertificate
  have hopened : Deed.perform acme (.ofDisk emptyAcme) .opening =
      (.ok (), .ofDisk (openAcme [])) := by
    simp only [Deed.perform]
    rw [show acme.basePath = "acme" from rfl, openAt_acme]
    rfl
  have hcredentials : Deed.perform acme (.ofDisk (openAcme []))
      (.credentials directoryUrl "text") = (.ok (), .ofDisk (openAcme [accountEntry "text"])) := by
    rw [Deed.perform, saveCredentials_openAcme]
  have hdone : acme.Done (.ofDisk emptyAcme)
      [.opening, .credentials directoryUrl "text", .certificate "d" oldCertificate] after :=
    .next (.next (.next (.begun _) hopened) hcredentials) hsave
  obtain ⟨hload, htexts, -⟩ := found_of_done emptyAt_acme hdone (by
    simp only [List.forall_mem_cons]
    exact ⟨trivial, trivial, plain_d, by simp⟩)
  have hfound := hload "d" plain_d
  have htext := htexts directoryUrl (by simp +contextual)
  exact ⟨after, hdone, by simpa [lastCertificate, Deed.certificateFor] using hfound,
    by simpa [lastText, Deed.textFor] using htext⟩

end RegistryFront.Store
