import RegistryFront.Proofs.Acme.Service
import RegistryFront.Proofs.Pem.Texts
import RegistryFront.Proofs.Store.Unlinked

/-!
# A certificate that is kept

How a client goes on from a certificate in the store that is not due, and a disk with one.
-/

namespace RegistryFront.Acme

variable {σ : Type}

theorem serve_on (certificate : StoredCertificate) (state : State σ) :
    (serve certificate).on state =
      match certifiedOf certificate.chainPem certificate.keyPem with
      | .ok certified => (.ok (), { state with resolver := .serve certified })
      | .error cause => (.error cause, state) := by
  rw [serve, Run.on_of, Resolver.servePem]
  cases certifiedOf certificate.chainPem certificate.keyPem <;> rfl

namespace Client

variable {client : Client} {outside : Outside σ} {state : State σ}

theorem validCertificate_of_fresh {found : StoredCertificate}
    (hdue : client.store.isDue state.drive.disk state.wall client.primaryDomain client.domains
      client.renewBeforeDays = .ok false)
    (hload : client.store.load state.drive.disk client.primaryDomain = .ok (some found)) :
    (client.validCertificate outside).on state = (.ok found, state) := by
  simp only [validCertificate, Run.on_bind, loadValid_on, hdue, hload, Except.mapError, Run.on_pure]

theorem ensureCertificate_of_fresh {found : StoredCertificate} {certified : Tls.Certified}
    (hdue : client.store.isDue state.drive.disk state.wall client.primaryDomain client.domains
      client.renewBeforeDays = .ok false)
    (hload : client.store.load state.drive.disk client.primaryDomain = .ok (some found))
    (hcertified : certifiedOf found.chainPem found.keyPem = .ok certified) :
    (client.ensureCertificate outside).on state =
      (.ok (), { state with resolver := .serve certified }) := by
  rw [ensureCertificate, Run.on_bind, validCertificate_of_fresh hdue hload]
  dsimp only
  rw [serve_on, hcertified]

theorem checkRenewal_of_fresh
    (hdue : client.store.isDue state.drive.disk state.wall client.primaryDomain client.domains
      client.renewBeforeDays = .ok false) :
    (client.checkRenewal outside).on state = (.ok false, state) := by
  simp [checkRenewal, Run.on_bind, isDue_on, hdue, Except.mapError]

end Client

namespace FirstCertificate

open Files

/-! ### Two keys for one chain -/

def key (second : Bool) : Keys.PrivateKey :=
  .edwards (List.replicate 32 (if second then 2 else 1))

def keyPem (second : Bool) : String := Pem.writeText .privateKey (key second).write

def stored (second : Bool) : StoredCertificate := ⟨chainPem, keyPem second, record⟩

def certified (second : Bool) : Tls.Certified := ⟨[leaf], key second, List.cons_ne_nil _ _⟩

theorem certificates_chainPem : Pem.certificates (Text.Utf8.encode chainPem) = [leaf] := by
  rw [chainPem, Pem.encode_writeText]
  simpa using Pem.certificates_flatMap_write [leaf]

theorem privateKey?_keyPem (second : Bool) :
    Pem.privateKey? (Text.Utf8.encode (keyPem second)) = some (.pkcs8, (key second).write) := by
  rw [keyPem, Pem.encode_writeText]
  exact Pem.privateKey?_write rfl _

theorem read?_key (second : Bool) :
    Keys.PrivateKey.read? .pkcs8 (key second).write = some (key second) := by
  cases second <;> decide +kernel

theorem certifiedOf_stored (second : Bool) :
    certifiedOf (stored second).chainPem (stored second).keyPem = .ok (certified second) := by
  have hchain : Pem.certificates (Text.Utf8.encode (stored second).chainPem) = [leaf] :=
    certificates_chainPem
  have hkey : Pem.privateKey? (Text.Utf8.encode (stored second).keyPem) =
      some (.pkcs8, (key second).write) := privateKey?_keyPem second
  rw [certifiedOf, Tls.Certified.ofPem, hchain, hkey, Tls.Certified.make,
    dif_neg (List.cons_ne_nil _ _)]
  simp only [read?_key]
  rfl

theorem certified_ne : certified true ≠ certified false := by
  intro h
  exact absurd (congrArg Tls.Certified.key h) (by decide)

/-! ### The disk -/

def kept : Option StoredCertificate → Disk
  | none => Store.openAcme []
  | some certificate => Store.openAcme [
      (["acme", "domains", "d"], .directory 0o755),
      (["acme", "domains", "d", "cert.pem"], .file 0o644 (Text.Utf8.encode certificate.chainPem)),
      (["acme", "domains", "d", "key.pem"], .file 0o600 (Text.Utf8.encode certificate.keyPem)),
      (["acme", "domains", "d", "meta.json"],
        .file 0o644 (Text.Utf8.encode certificate.record.write))]

theorem openAt_kept (before : Option StoredCertificate) :
    Store.openAt "acme" (.ofDisk (kept before)) = (.ok Store.acme, .ofDisk (kept before)) := by
  obtain ⟨hpaths, hnames⟩ := Store.acme_sizes
  simp only [List.forall_mem_cons] at hpaths hnames
  have hstore : (⟨"acme"⟩ : Store) = Store.acme := rfl
  cases before <;>
  simp [Store.openAt, hstore, Store.openActions, Store.ofFiles, Drive.performAll, Drive.perform,
    Drive.ofDisk, Action.applyStruck, Action.apply, keeping, Disk.makeDirectories,
    Disk.makeDirectoriesOf, Disk.makeDirectory, Disk.isDirectory, Disk.setMode, Disk.find,
    Disk.locate, Disk.walk, Disk.node?, Disk.put, List.lookup_cons, Nat.not_lt.mpr, bind,
    Except.bind, Except.mapError, Except.map, kept, Store.openAcme, Store.acme_paths,
    Store.acme_parts, hpaths, hnames, Errno.alreadyExists, Errno.noEntry]

theorem save_kept (before : Option StoredCertificate) (new : StoredCertificate) :
    Store.acme.save (.ofDisk (kept before)) "d" new = (.ok (), .ofDisk (kept (some new))) := by
  obtain ⟨hpaths, hnames⟩ := Store.acme_sizes
  simp only [List.forall_mem_cons] at hpaths hnames
  cases before <;>
  simp [Store.save, Store.ofFiles, Store.saveActions, Store.secretActions, Drive.performAll,
    Drive.perform, Drive.ofDisk, Action.applyStruck, Action.apply, keeping, Disk.makeDirectories,
    Disk.makeDirectoriesOf, Disk.makeDirectory, Disk.isDirectory, Disk.write, Disk.setMode,
    Disk.find, Disk.locate, Disk.walk, Disk.node?, Disk.put, List.lookup_cons, Nat.not_lt.mpr, bind,
    Except.bind, Except.mapError, kept, Store.openAcme, Store.acme_paths, Store.acme_parts, hpaths,
    hnames, Errno.alreadyExists, Errno.noEntry]

theorem keeps_kept (certificate : StoredCertificate) :
    Store.acme.Keeps ["acme"] (kept (some certificate)) :=
  (Store.keeps_openAcme.shelf_of_save inner_primaryDomain (save_kept none certificate)).1

theorem load_kept (second : Bool) :
    Store.acme.load (kept (some (stored second))) "d" = .ok (some (stored second)) :=
  Store.keeps_openAcme.load_of_save inner_primaryDomain (save_kept none (stored second)) read_record

theorem isDue_kept (second : Bool) :
    Store.acme.isDue (kept (some (stored second))) .epoch "d" ["d"]
      Client.defaultRenewBeforeDays = .ok false :=
  Store.isDue_of_fresh (load_kept second) fresh_record

/-! ### A client that finds it -/

def restarted : State Unit :=
  .start ⟨(), 0, .epoch, .ofSeed [], []⟩ (.ofDisk (kept (some (stored false))))

def serving : State Unit := { restarted with resolver := .serve (certified false) }

theorem validCertificate_restarted :
    (client.validCertificate willing).on restarted = (.ok (stored false), restarted) :=
  Client.validCertificate_of_fresh (isDue_kept false) (load_kept false)

theorem ensureCertificate_restarted :
    (client.ensureCertificate willing).on restarted = (.ok (), serving) :=
  Client.ensureCertificate_of_fresh (isDue_kept false) (load_kept false) (certifiedOf_stored false)

end FirstCertificate

end RegistryFront.Acme
