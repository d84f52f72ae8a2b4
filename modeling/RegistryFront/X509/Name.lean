import RegistryFront.Asn1.Der
import RegistryFront.Text.Utf8

/-!
# Names of subjects and issuers

A name is a list of groups of attributes; each attribute has a kind and a text.
-/

namespace RegistryFront.X509.Name

def commonNameId : Asn1.ObjectId := [2, 5, 4, 3]

def abbreviations : List (Asn1.ObjectId × String) := [
  (commonNameId, "CN"),
  ([2, 5, 4, 6], "C"),
  ([2, 5, 4, 7], "L"),
  ([2, 5, 4, 8], "ST"),
  ([2, 5, 4, 10], "O"),
  ([2, 5, 4, 11], "OU"),
  ([0, 9, 2342, 19200300, 100, 1, 25], "DC"),
  ([1, 2, 840, 113549, 1, 9, 1], "Email")]

def ofCommonName (text : String) : Bytes :=
  Asn1.encode Asn1.Tag.setOf <|
    Asn1.sequence
      [Asn1.objectId commonNameId, Asn1.encode Asn1.Tag.utf8String (Text.Utf8.encode text)]

def attribute? (content : Bytes) : Option (Asn1.ObjectId × String) := do
  match ← Asn1.values content with
  | [(tag, id), (_, text)] =>
      if tag = Asn1.Tag.objectId then some (← Asn1.readObjectId id, ← Text.Utf8.decode? text)
      else none
  | _ => none

def attributes? (content : Bytes) : Option (List (List (Asn1.ObjectId × String))) := do
  let groups ← Asn1.values content
  groups.mapM fun (tag, group) => do
    if tag ≠ Asn1.Tag.setOf then none
    else
      let attributes ← Asn1.values group
      attributes.mapM fun (_, part) => attribute? part

def attributeText : Asn1.ObjectId × String → String
  | (id, text) => (abbreviations.lookup id).getD id.text ++ "=" ++ text

def text? (content : Bytes) : Option String :=
  (attributes? content).map fun groups =>
    ", ".intercalate (groups.map fun group => " + ".intercalate (group.map attributeText))

end RegistryFront.X509.Name
