import RegistryFront.StaticPair.Bootstrap
import RegistryFront.Tls.Handshake

/-!
# Serving a pair from files

A certificate without its key is refused at once.  Both have to be readable and to go together.
-/

namespace RegistryFront.StaticPair

open Files (Disk)

def readFile (disk : Disk) (path : String) : Except Error Bytes :=
  (disk.read path).mapError (.read path)

def Location.fault (location : Location) : Tls.PairFault → Error
  | .noCertificates => .noCertificates location.certificate
  | .noPrivateKey => .noPrivateKey location.key
  | .tls fault => .tls fault

/-- The certificate is read, and known to hold something, before the key is read. -/
def load (location : Location) (disk : Disk) : Except Error Tls.ServerSetup :=
  if !disk.pathExists location.key then
    .error (.missingKey location.certificate location.key)
  else do
    let chainPem ← readFile disk location.certificate
    if Pem.certificates chainPem = [] then .error (.noCertificates location.certificate)
    else
      let keyPem ← readFile disk location.key
      match Tls.Certified.ofMatchingPem chainPem keyPem with
      | .ok certified => .ok ⟨.fixed certified, Tls.Protocol.regular⟩
      | .error fault => .error (location.fault fault)

end RegistryFront.StaticPair
