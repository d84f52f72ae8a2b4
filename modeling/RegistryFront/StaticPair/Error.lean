import RegistryFront.Files.Errno
import RegistryFront.Tls.Certified
import RegistryFront.X509.Fault

/-!
# Errors of certificates and keys in files
-/

namespace RegistryFront.StaticPair

open Files (FileError)

inductive Error where
  | createDirectory (path : String) (cause : FileError)
  | write (path : String) (cause : FileError)
  | read (path : String) (cause : FileError)
  | noCertificates (path : String)
  | noPrivateKey (path : String)
  | missingKey (certPath keyPath : String)
  | keyGeneration (text : String)
  | keyEncoding (text : String)
  | random (text : String)
  | certificate (cause : X509.BuildError)
  | tls (fault : Tls.Fault)
  deriving DecidableEq, Repr

def Error.message : Error → String
  | .createDirectory path cause => "failed to create directory " ++ path ++ ": " ++ cause.message
  | .write path cause => "failed to write " ++ path ++ ": " ++ cause.message
  | .read path cause => "failed to read " ++ path ++ ": " ++ cause.message
  | .noCertificates path => "no certificates found in " ++ path
  | .noPrivateKey path => "no private key found in " ++ path
  | .missingKey certPath keyPath =>
      "certificate " ++ certPath ++ " has no matching key file " ++ keyPath
  | .keyGeneration text => "key generation failed: " ++ text
  | .keyEncoding text => "key encoding failed: " ++ text
  | .random text => "random number generation failed: " ++ text
  | .certificate cause => "certificate generation failed: " ++ cause.message
  | .tls fault => "TLS configuration error: " ++ fault.message

end RegistryFront.StaticPair
