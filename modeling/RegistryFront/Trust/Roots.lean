import RegistryFront.Files.Disk
import RegistryFront.Pem.Basic
import RegistryFront.StaticPair.Error
import RegistryFront.X509.Certificate

/-!
# Roots of trust

The certificates that are trusted when an authority is talked to: those of the system, and either all
usable ones of a file or those that come with the program.
-/

namespace RegistryFront.Trust

open X509 (Anchor)

def anchors (certificates : List Bytes) : List Anchor :=
  certificates.filterMap Anchor.ofCertificate?

/-! ## Roots of the system -/

/-- Byte by byte; the shorter of two is first where they are alike. -/
def notAfter : Bytes → Bytes → Bool
  | [], _ => true
  | _ :: _, [] => false
  | a :: as, b :: bs => if a = b then notAfter as bs else a < b

/-- Each certificate once, in order of the bytes. -/
def systemRoots (certificates : List Bytes) : List Anchor :=
  anchors (certificates.eraseDups.mergeSort notAfter)

def systemCertificates (disk : Files.Disk) (path : Option String) : List Bytes :=
  match path.map disk.read with
  | some (.ok text) => Pem.certificates text
  | _ => []

/-- Without a file of one's own the roots that come with the program are added. -/
def defaultRoots (system bundled : List Anchor) : List Anchor := system ++ bundled

/-! ## Roots of a file -/

def rootsWith (system : List Anchor) (disk : Files.Disk) (path : String) :
    Except StaticPair.Error (List Anchor) :=
  match disk.read path with
  | .error cause => .error (.read path cause)
  | .ok text =>
      let found := anchors (Pem.certificates text)
      if found = [] then .error (.noCertificates path) else .ok (system ++ found)

end RegistryFront.Trust
