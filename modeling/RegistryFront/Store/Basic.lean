import RegistryFront.Digest.Sha256
import RegistryFront.Files.Action
import RegistryFront.Store.Record
import RegistryFront.Text.Hex

/-!
# The certificate store

A directory that keeps the credentials of accounts, one file per authority, and the certificates, one
directory per primary domain with the chain, the key and the record.  The record is written last: a
pair without it does not count.  Credentials and keys are for their owner alone.
-/

namespace RegistryFront

inductive StoreError where
  | file (cause : Files.FileError)
  | record (cause : Json.Error)

def StoreError.message : StoreError → String
  | .file cause => "IO error: " ++ cause.message
  | .record cause => "Serialization error: " ++ cause.message

structure StoredCertificate where
  chainPem : String
  keyPem : String
  record : Store.Record
  deriving DecidableEq

structure Store where
  basePath : String
  deriving DecidableEq, Repr

namespace Store

open Files (Action Disk Drive)
open Time (Instant)

def ofFiles : Except Files.FileError α × Drive → Except StoreError α × Drive :=
  fun (result, drive) => (result.mapError .file, drive)

def accountsPath (store : Store) : String := Files.Path.join store.basePath "accounts"

def domainsPath (store : Store) : String := Files.Path.join store.basePath "domains"

def openActions (store : Store) : List Action := [
  .makeDirectories store.accountsPath 0o755,
  .makeDirectories store.domainsPath 0o755,
  .setMode store.basePath 0o700,
  .setMode store.accountsPath 0o700,
  .setMode store.domainsPath 0o700]

def openAt (basePath : String) (drive : Drive) : Except StoreError Store × Drive :=
  let store : Store := ⟨basePath⟩
  let (result, drive) := ofFiles (drive.performAll store.openActions)
  (result.map fun _ => store, drive)

def secretActions (path content : String) : List Action := [
  .write path 0o644 (Text.Utf8.encode content),
  .setMode path 0o600]

/-! ## Accounts -/

/-- Accounts are told apart by the start of the digest of the authority's directory. -/
def accountName (directoryUrl : String) : String :=
  Text.Hex.encode ((Digest.sha256 (Text.Utf8.encode directoryUrl)).take 8)

def accountPath (store : Store) (directoryUrl : String) : String :=
  Files.Path.join store.accountsPath (accountName directoryUrl ++ ".json")

def loadCredentials (store : Store) (disk : Disk) (directoryUrl : String) :
    Except StoreError (Option String) :=
  let path := store.accountPath directoryUrl
  if disk.pathExists path then
    match disk.readText path with
    | .ok text => .ok (some text)
    | .error cause => .error (.file cause)
  else .ok none

def saveCredentials (store : Store) (drive : Drive) (directoryUrl text : String) :
    Except StoreError Unit × Drive :=
  ofFiles (drive.performAll (secretActions (store.accountPath directoryUrl) text))

/-! ## Certificates -/

def domainPath (store : Store) (domain : String) : String :=
  Files.Path.join store.domainsPath domain

def chainPath (store : Store) (domain : String) : String :=
  Files.Path.join (store.domainPath domain) "cert.pem"

def keyPath (store : Store) (domain : String) : String :=
  Files.Path.join (store.domainPath domain) "key.pem"

def recordPath (store : Store) (domain : String) : String :=
  Files.Path.join (store.domainPath domain) "meta.json"

/-- None when any of the three files is missing. -/
def load (store : Store) (disk : Disk) (domain : String) :
    Except StoreError (Option StoredCertificate) :=
  let paths := [store.chainPath domain, store.keyPath domain, store.recordPath domain]
  if paths.all disk.pathExists then
    match disk.readText (store.chainPath domain), disk.readText (store.keyPath domain),
        disk.readText (store.recordPath domain) with
    | .ok chainPem, .ok keyPem, .ok text =>
        match Record.read text with
        | .ok record => .ok (some ⟨chainPem, keyPem, record⟩)
        | .error cause => .error (.record cause)
    | .error cause, _, _ => .error (.file cause)
    | _, .error cause, _ => .error (.file cause)
    | _, _, .error cause => .error (.file cause)
  else .ok none

def saveActions (store : Store) (domain : String) (certificate : StoredCertificate) : List Action :=
  .makeDirectories (store.domainPath domain) 0o755 ::
  .write (store.chainPath domain) 0o644 (Text.Utf8.encode certificate.chainPem) ::
  secretActions (store.keyPath domain) certificate.keyPem ++
  [.write (store.recordPath domain) 0o644 (Text.Utf8.encode certificate.record.write)]

def save (store : Store) (drive : Drive) (domain : String) (certificate : StoredCertificate) :
    Except StoreError Unit × Drive :=
  ofFiles (drive.performAll (store.saveActions domain certificate))

/-! ## Renewal -/

inductive DueError where
  | store (cause : StoreError)
  /-- The day up to which certificates have to last is past the end of the calendar. -/
  | pastCalendar

def isDue (store : Store) (disk : Disk) (now : Instant) (domain : String) (domains : List String)
    (days : Nat) : Except DueError Bool :=
  match store.load disk domain with
  | .error cause => .error (.store cause)
  | .ok none => .ok true
  | .ok (some certificate) =>
      if certificate.record.domains ≠ domains then .ok true
      else
        match now.addDays? days with
        | none => .error .pastCalendar
        | some limit => .ok (certificate.record.expires.notAfter limit)

end Store

end RegistryFront
