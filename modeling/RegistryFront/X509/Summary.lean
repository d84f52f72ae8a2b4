import RegistryFront.X509.Certificate
import RegistryFront.X509.Moment
import RegistryFront.X509.Name

/-!
# What a certificate says

The parts of a certificate that people look at, read out of its values.
-/

namespace RegistryFront.X509

structure Summary where
  serial : Nat
  subject : String
  issuer : String
  /-- In seconds since 1970. -/
  notBefore : Int
  notAfter : Int
  signatureAlgorithm : Asn1.ObjectId
  keyAlgorithm : Asn1.ObjectId
  names : List AlternativeName
  /-- With whether the extension is critical, as for the next ones. -/
  basicConstraints : Option (Bool × Bool)
  keyUses : Option (Bool × List KeyUse)
  roles : Option (List Asn1.ObjectId)
  acmeIdentifier : Option (Bool × Bytes)
  deriving DecidableEq, Repr

namespace Certificate

def leadingId? (content : Bytes) : Option Asn1.ObjectId := do
  let (id, _) ← Asn1.expect Asn1.Tag.objectId content
  Asn1.readObjectId id

def validity? (certificate : Certificate) : Option (Int × Int) := do
  match ← Asn1.values certificate.validity with
  | [(tag, start), (tag', stop)] => some (← Moment.read? tag start, ← Moment.read? tag' stop)
  | _ => none

def said? (certificate : Certificate) (id : Bytes) (read : Bytes → Option α) : Option (Bool × α) := do
  let extension ← certificate.extension? id
  some (extension.critical, ← read extension.value)

def summary? (certificate : Certificate) : Option Summary := do
  let (notBefore, notAfter) ← certificate.validity?
  let (keyAlgorithm, _) ← Asn1.expect Asn1.Tag.sequence certificate.publicKey
  some {
    serial := Asn1.naturalOf certificate.serial
    subject := ← Name.text? certificate.subject
    issuer := ← Name.text? certificate.issuer
    notBefore := notBefore
    notAfter := notAfter
    signatureAlgorithm := ← leadingId? certificate.algorithm
    keyAlgorithm := ← leadingId? keyAlgorithm
    names := ((certificate.said? Extension.alternativeNamesId AlternativeName.readAll?).map
      (·.2)).getD []
    basicConstraints := certificate.said? Extension.basicConstraintsId readBasicConstraints?
    keyUses := certificate.said? Extension.keyUsageId KeyUse.readAll?
    roles := (certificate.said? Extension.extendedUsageId readExtendedUsage?).map (·.2)
    acmeIdentifier := certificate.said? Extension.acmeIdentifierId some }

end Certificate

end RegistryFront.X509
