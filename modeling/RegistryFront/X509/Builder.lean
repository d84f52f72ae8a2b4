import RegistryFront.Keys.PrivateKey
import RegistryFront.X509.Extension
import RegistryFront.X509.Moment
import RegistryFront.X509.Name

/-!
# Making certificates and requests

A certificate that is signed with its own key, and a request for one.
-/

namespace RegistryFront.X509

open Keys (Entropy PrivateKey)

/-! ## Signatures -/

def rsaSignatureId : Asn1.ObjectId := [1, 2, 840, 113549, 1, 1, 11]

def curveSignatureId : Asn1.ObjectId := [1, 2, 840, 10045, 4, 3, 2]

/-- How a key signs; keys on the Edwards curve do not sign here. -/
def signatureAlgorithm? : PrivateKey → Option Bytes
  | .rsa _ => some (Asn1.sequence [Asn1.objectId rsaSignatureId, Asn1.null])
  | .curve _ => some (Asn1.sequence [Asn1.objectId curveSignatureId])
  | .edwards _ => none

def sign? (key : PrivateKey) (message : Bytes) (entropy : Entropy) : Option Bytes :=
  match key with
  | .rsa key => some (key.sign message)
  | .curve key => key.sign (Digest.sha256 message) entropy
  | .edwards _ => none

def sealed (key : PrivateKey) (signed : Bytes) (entropy : Entropy) : Except BuildError Bytes :=
  match signatureAlgorithm? key, sign? key signed entropy with
  | some algorithm, some signature =>
      .ok (Asn1.sequence [signed, algorithm, Asn1.bitString signature])
  | _, _ => .error .cannotSign

/-! ## Certificates -/

/-- What a certificate is to say; times in seconds since 1970. -/
structure Template where
  serial : Nat
  commonName : String
  notBefore : Int
  notAfter : Int
  extensions : List Extension
  deriving DecidableEq, Repr

def Template.signedPart (template : Template) (key : PrivateKey) (algorithm : Bytes) : Bytes :=
  let name := Asn1.sequence [Name.ofCommonName template.commonName]
  Asn1.sequence [
    Asn1.encode (Asn1.Tag.context 0 true) (Asn1.natural 2),
    Asn1.natural template.serial,
    algorithm,
    name,
    Asn1.sequence [Moment.write template.notBefore, Moment.write template.notAfter],
    name,
    key.publicInfo,
    Asn1.encode (Asn1.Tag.context 3 true)
      (Asn1.sequence (template.extensions.map Extension.write))]

def selfSigned (template : Template) (key : PrivateKey) (entropy : Entropy) :
    Except BuildError Bytes :=
  match signatureAlgorithm? key with
  | some algorithm => sealed key (template.signedPart key algorithm) entropy
  | none => .error .cannotSign

/-! ## Requests -/

def extensionRequestId : Asn1.ObjectId := [1, 2, 840, 113549, 1, 9, 14]

def request (names : List AlternativeName) (key : PrivateKey) (entropy : Entropy) :
    Except BuildError Bytes :=
  let extensions := Asn1.sequence [(AlternativeName.extension names).write]
  let wish := Asn1.sequence
    [Asn1.objectId extensionRequestId, Asn1.encode Asn1.Tag.setOf extensions]
  sealed key (Asn1.sequence [Asn1.natural 0, Asn1.sequence [], key.publicInfo,
    Asn1.encode (Asn1.Tag.context 0 true) wish]) entropy

end RegistryFront.X509
