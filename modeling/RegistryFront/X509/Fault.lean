/-!
# Faults of certificates
-/

namespace RegistryFront.X509

inductive BuildError where
  | notAscii (name : String)
  | cannotSign
  | digestLength
  deriving DecidableEq, Repr

def BuildError.message : BuildError → String
  | .notAscii name => "Invalid IA5String: '" ++ name ++ "'"
  | .cannotSign => "The requested signature algorithm is not supported"
  | .digestLength => "The digest of a challenge has 32 bytes"

inductive Malformed where
  | encoding
  | unsupportedVersion
  | unsupportedCriticalExtension
  | repeatedExtension
  | signatureAlgorithmMismatch
  deriving DecidableEq, Repr

def Malformed.name : Malformed → String
  | .encoding => "BadEncoding"
  | .unsupportedVersion => "Other(OtherError(UnsupportedCertVersion))"
  | .unsupportedCriticalExtension => "Other(OtherError(UnsupportedCriticalExtension))"
  | .repeatedExtension => "Other(OtherError(ExtensionValueInvalid))"
  | .signatureAlgorithmMismatch => "Other(OtherError(SignatureAlgorithmMismatch))"

end RegistryFront.X509
