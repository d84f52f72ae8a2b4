import RegistryFront.X509.Extension

/-!
# Reading certificates

A certificate is a signed part, the way of signing and a signature.  It is of the third version; the
signed part names the way of signing once more.  Of the extensions some are known, each may be there
once; one that is not known must not be critical.
-/

namespace RegistryFront.X509

structure Certificate where
  serial : Bytes
  algorithm : Bytes
  issuer : Bytes
  validity : Bytes
  subject : Bytes
  publicKey : Bytes
  extensions : List Extension
  deriving DecidableEq, Repr

namespace Certificate

/-- Values have to be shorter than this. -/
def sizeLimit : Nat := 65535

def part (tag : UInt8) (bytes : Bytes) : Except Malformed (Bytes × Bytes) :=
  match Asn1.expect tag bytes with
  | some (content, rest) =>
      if content.length < sizeLimit then .ok (content, rest) else .error .encoding
  | none => .error .encoding

def whole (tag : UInt8) (bytes : Bytes) : Except Malformed Bytes := do
  match ← part tag bytes with
  | (content, []) => .ok content
  | _ => .error .encoding

/-- The version stands first in the signed part; two is the third. -/
def readVersion (signed : Bytes) : Except Malformed Bytes :=
  match part (Asn1.Tag.context 0 true) signed with
  | .error _ => .error .unsupportedVersion
  | .ok (content, rest) => do
      let (number, behind) ← part Asn1.Tag.integer content
      match Asn1.readNatural number with
      | none => .error .encoding
      | some version =>
          if 256 ≤ version then .error .encoding
          else if version = 2 ∧ behind = [] then .ok rest
          else .error .unsupportedVersion

/-! ## Extensions -/

def knownExtensions : List Bytes :=
  [Extension.keyUsageId, Extension.alternativeNamesId, Extension.basicConstraintsId,
    Extension.nameConstraintsId, Extension.revocationPointsId, Extension.extendedUsageId]

def readCritical (bytes : Bytes) : Except Malformed (Bool × Bytes) :=
  if bytes.head? = some Asn1.Tag.boolean then do
    match ← part Asn1.Tag.boolean bytes with
    | ([0xFF], rest) => .ok (true, rest)
    | ([0x00], rest) => .ok (false, rest)
    | _ => .error .encoding
  else .ok (false, bytes)

def readExtension (content : Bytes) : Except Malformed (Extension × Bytes) := do
  let (id, rest) ← part Asn1.Tag.objectId content
  let (critical, rest) ← readCritical rest
  let (value, rest) ← part Asn1.Tag.octetString rest
  .ok (⟨id, critical, value⟩, rest)

/-- Known extensions, each once, and others that are not critical. -/
def knownOnce (before : List Extension) (extension : Extension) : Except Malformed Unit :=
  if knownExtensions.contains extension.id then
    if before.any (·.id == extension.id) then .error .repeatedExtension
    else if extension.id = Extension.keyUsageId then .ok ()
    else (whole Asn1.Tag.sequence extension.value).map fun _ => ()
  else if extension.critical then .error .unsupportedCriticalExtension
  else .ok ()

abbrev ExtensionRule := List Extension → Extension → Except Malformed Unit

def anyExtension : ExtensionRule := fun _ _ => .ok ()

/-- One extension after the other; every one takes at least two bytes of the fuel. -/
def readExtensions (rule : ExtensionRule) (before : List Extension) : (fuel : Nat) → Bytes →
    Except Malformed (List Extension)
  | _, [] => .ok before
  | 0, _ => .error .encoding
  | fuel + 1, bytes => do
      let (content, rest) ← part Asn1.Tag.sequence bytes
      let (extension, behind) ← readExtension content
      rule before extension
      if behind = [] then readExtensions rule (before ++ [extension]) fuel rest
      else .error .encoding

def readTail (rule : ExtensionRule) (bytes : Bytes) : Except Malformed (List Extension) :=
  if bytes = [] then .ok []
  else do
    let content ← whole (Asn1.Tag.context 3 true) bytes
    let list ← whole Asn1.Tag.sequence content
    readExtensions rule [] list.length list

/-! ## The whole -/

def readSigned (rule : ExtensionRule) (signed algorithm : Bytes) : Except Malformed Certificate := do
  let rest ← readVersion signed
  let (serial, rest) ← part Asn1.Tag.integer rest
  let (inner, rest) ← part Asn1.Tag.sequence rest
  if inner ≠ algorithm then .error .signatureAlgorithmMismatch
  else
    let (issuer, rest) ← part Asn1.Tag.sequence rest
    let (validity, rest) ← part Asn1.Tag.sequence rest
    let (subject, rest) ← part Asn1.Tag.sequence rest
    let (publicKey, rest) ← part Asn1.Tag.sequence rest
    let extensions ← readTail rule rest
    .ok ⟨serial, algorithm, issuer, validity, subject, publicKey, extensions⟩

def readWith (rule : ExtensionRule) (der : Bytes) : Except Malformed Certificate := do
  let content ← whole Asn1.Tag.sequence der
  let (signed, rest) ← part Asn1.Tag.sequence content
  let (algorithm, rest) ← part Asn1.Tag.sequence rest
  let bits ← whole Asn1.Tag.bitString rest
  if (Asn1.readBits bits).isSome then readSigned rule signed algorithm else .error .encoding

def read (der : Bytes) : Except Malformed Certificate := readWith knownOnce der

def extension? (certificate : Certificate) (id : Bytes) : Option Extension :=
  certificate.extensions.find? (·.id == id)

def publicInfo (certificate : Certificate) : Bytes :=
  Asn1.encode Asn1.Tag.sequence certificate.publicKey

end Certificate

/-! ## Anchors of trust -/

structure Anchor where
  subject : Bytes
  publicKey : Bytes
  nameConstraints : Option Bytes
  deriving DecidableEq, Repr

namespace Anchor

def ofFirstVersion (der : Bytes) : Except Malformed Anchor := do
  let content ← Certificate.whole Asn1.Tag.sequence der
  let (signed, rest) ← Certificate.part Asn1.Tag.sequence content
  let (_, rest) ← Certificate.part Asn1.Tag.sequence rest
  let _ ← Certificate.whole Asn1.Tag.bitString rest
  let (_, rest) ← Certificate.part Asn1.Tag.integer signed
  let (_, rest) ← Certificate.part Asn1.Tag.sequence rest
  let (_, rest) ← Certificate.part Asn1.Tag.sequence rest
  let (_, rest) ← Certificate.part Asn1.Tag.sequence rest
  let (subject, rest) ← Certificate.part Asn1.Tag.sequence rest
  let publicKey ← Certificate.whole Asn1.Tag.sequence rest
  .ok ⟨subject, publicKey, none⟩

def ofCertificate? (der : Bytes) : Option Anchor :=
  match Certificate.read der with
  | .ok certificate =>
      some ⟨certificate.subject, certificate.publicKey,
        (certificate.extension? Extension.nameConstraintsId).map (·.value)⟩
  | .error .unsupportedVersion => (ofFirstVersion der).toOption
  | .error _ => none

end Anchor

end RegistryFront.X509
