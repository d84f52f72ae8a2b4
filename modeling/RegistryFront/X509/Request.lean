import RegistryFront.X509.Extension
import RegistryFront.X509.Name

/-!
# What a request for a certificate says
-/

namespace RegistryFront.X509

structure RequestSummary where
  subject : String
  keyAlgorithm : Asn1.ObjectId
  names : List AlternativeName
  deriving DecidableEq, Repr

namespace RequestSummary

def wishedNames? (extensions : Bytes) : Option (List AlternativeName) := do
  let list ← Asn1.values extensions
  let found := list.filterMap fun (_, content) =>
    match Asn1.values content with
    | some [(_, id), (_, value)] => if id = Extension.alternativeNamesId then some value else none
    | some [(_, id), _, (_, value)] =>
        if id = Extension.alternativeNamesId then some value else none
    | _ => none
  match found with
  | value :: _ => AlternativeName.readAll? value
  | [] => some []

/-- The extensions stand in the first attribute, in a set of one. -/
def ofAttributes? (attributes : Bytes) : Option (List AlternativeName) := do
  let (wish, _) ← Asn1.expect Asn1.Tag.sequence attributes
  let (_, rest) ← Asn1.expect Asn1.Tag.objectId wish
  let (set, _) ← Asn1.expect Asn1.Tag.setOf rest
  let (extensions, _) ← Asn1.expect Asn1.Tag.sequence set
  wishedNames? extensions

def ofDer? (der : Bytes) : Option RequestSummary := do
  let (content, _) ← Asn1.expect Asn1.Tag.sequence der
  let (signed, _) ← Asn1.expect Asn1.Tag.sequence content
  let (_, rest) ← Asn1.expect Asn1.Tag.integer signed
  let (subject, rest) ← Asn1.expect Asn1.Tag.sequence rest
  let (publicKey, rest) ← Asn1.expect Asn1.Tag.sequence rest
  let (algorithm, _) ← Asn1.expect Asn1.Tag.sequence publicKey
  let (id, _) ← Asn1.expect Asn1.Tag.objectId algorithm
  let (attributes, _) ← Asn1.expect (Asn1.Tag.context 0 true) rest
  some ⟨← Name.text? subject, ← Asn1.readObjectId id, ← ofAttributes? attributes⟩

end RequestSummary

end RegistryFront.X509
