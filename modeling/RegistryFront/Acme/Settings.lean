import RegistryFront.Environment.Variable
import RegistryFront.Files.Path

/-!
# Settings of the issuer

What the issuer of certificates has to know.  Where an option is missing there is a default.
-/

namespace RegistryFront.Acme

structure Settings (ρ : Type) where
  email : Option String
  directoryUrl? : Option String
  httpPort? : Option Nat
  tlsAlpnPort : Nat
  trustedRoots : Option ρ
  storagePath : Option String
  deriving DecidableEq, Repr

structure UserDirectories where
  home : Option String
  dataHome : Option String
  deriving DecidableEq, Repr

namespace UserDirectories

def ofEnvironment (environment : List (List UInt8 × List UInt8)) : UserDirectories :=
  ⟨Environment.text? environment "HOME", Environment.text? environment "XDG_DATA_HOME"⟩

def dataDirectory? (user : UserDirectories) : Option String :=
  user.home.map fun home =>
    match user.dataHome.filter Files.Path.isAbsolute with
    | some path => path
    | none => Files.Path.join home ".local/share"

end UserDirectories

namespace Settings

def defaultDirectoryUrl : String := "https://acme-v02.api.letsencrypt.org/directory"

def defaultHttpPort : Nat := 80

/-- The port that port 443 of the outside is led to. -/
def defaultTlsAlpnPort : Nat := 8443

variable {ρ : Type}

def directoryUrl (settings : Settings ρ) : String := settings.directoryUrl?.getD defaultDirectoryUrl

def httpPort (settings : Settings ρ) : Nat := settings.httpPort?.getD defaultHttpPort

/-- Without a path of its own the store lies among the data of the user, or in the working directory
when the user has no home. -/
def storageDirectory (settings : Settings ρ) (user : UserDirectories) : String :=
  settings.storagePath.getD <|
    match user.dataDirectory? with
    | some path => Files.Path.join (Files.Path.join path "registry-gate") "acme"
    | none => "acme"

end Settings

end RegistryFront.Acme
