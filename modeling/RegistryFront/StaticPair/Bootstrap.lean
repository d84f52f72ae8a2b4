import RegistryFront.Files.Action
import RegistryFront.StaticPair.SelfSigned
import RegistryFront.Time.Instant

/-!
# Making sure there is a pair

When the certificate and the key are there, whatever they hold, nothing is done.  Otherwise both are
made anew, for their owner alone.  The certificate is written before the key.
-/

namespace RegistryFront.StaticPair

open Files (Action Drive)

structure Location where
  certificate : String
  key : String
  deriving DecidableEq, Repr

inductive Outcome where
  | alreadyPresent
  | generated
  deriving DecidableEq, Repr

def Outcome.name : Outcome → String
  | .alreadyPresent => "AlreadyPresent"
  | .generated => "Generated"

/-- Writes a file that only its owner may read, also when it was there before. -/
def privateFileActions (path : String) (content : Bytes) : List Action :=
  [.write path 0o600 content, .setMode path 0o600]

def writePrivateFile (path : String) (content : Bytes) (drive : Drive) : Except Error Unit × Drive :=
  let (result, drive) := drive.performAll (privateFileActions path content)
  (result.mapError (.write path), drive)

def writePair (location : Location) (pair : PemPair) (drive : Drive) : Except Error Unit × Drive :=
  match writePrivateFile location.certificate pair.certificate drive with
  | (.error cause, drive) => (.error cause, drive)
  | (.ok (), drive) => writePrivateFile location.key pair.key drive

def generate (location : Location) (now : Time.Instant) (entropy : Keys.Entropy) (drive : Drive) :
    Except Error Unit × Drive :=
  match SelfSigned.generate now.unixSeconds entropy with
  | .error cause => (.error cause, drive)
  | .ok pair => writePair location pair drive

def directory? (location : Location) : Option String :=
  (Files.Path.parent? location.certificate).filter (· ≠ "")

def makeDirectory (location : Location) (drive : Drive) : Except Error Unit × Drive :=
  match directory? location with
  | none => (.ok (), drive)
  | some path =>
      let (result, drive) := drive.perform (.makeDirectories path 0o750)
      (result.mapError (.createDirectory path), drive)

def isPresent (location : Location) (disk : Files.Disk) : Bool :=
  disk.pathExists location.certificate && disk.pathExists location.key

def renew (location : Location) (now : Time.Instant) (entropy : Keys.Entropy) (drive : Drive) :
    Except Error Outcome × Drive :=
  match makeDirectory location drive with
  | (.error cause, drive) => (.error cause, drive)
  | (.ok (), drive) =>
      let (result, drive) := generate location now entropy drive
      (result.map fun _ => .generated, drive)

def ensure (location : Location) (now : Time.Instant) (entropy : Keys.Entropy) (drive : Drive) :
    Except Error Outcome × Drive :=
  if isPresent location drive.disk then (.ok .alreadyPresent, drive)
  else renew location now entropy drive

end RegistryFront.StaticPair
