import RegistryFront.X509.Moment

/-!
# When a certificate runs out

The last second of a certificate, read from its bytes.  The certificate may be of any version; all of
its parts have to be there in their right form, but what follows the last part of a value is passed
over.
-/

namespace RegistryFront.X509

/-! ## What stands behind a part -/

/-- The first byte says how many bits at the end are spare, and these are zero. -/
def isBitString : Bytes → Bool
  | [] => false
  | [spare] => spare == 0
  | spare :: bytes =>
      spare ≤ 8 && (bytes.getLast?.getD 0).toNat % Nat.pow 2 spare.toNat == 0

def behindBits? (bytes : Bytes) : Option Bytes := do
  let (content, rest) ← Asn1.expect Asn1.Tag.bitString bytes
  if isBitString content then some rest else none

def behindAlgorithm? (bytes : Bytes) : Option Bytes := do
  let (content, rest) ← Asn1.expect Asn1.Tag.sequence bytes
  let (_, _) ← Asn1.expect Asn1.Tag.objectId content
  some rest

def behindVersion? (signed : Bytes) : Option Bytes :=
  match Asn1.expect (Asn1.Tag.context 0 true) signed with
  | none => some signed
  | some (content, rest) => do
      let (number, _) ← Asn1.expect Asn1.Tag.integer content
      let version ← Asn1.readNatural number
      if version < 0x100000000 then some rest else none

def behindUniqueId? (n : Nat) (bytes : Bytes) : Option Bytes :=
  match Asn1.expect (Asn1.Tag.context n false) bytes with
  | none => some bytes
  | some (content, rest) => if isBitString content then some rest else none

/-! ## Extensions -/

def isExtension (content : Bytes) : Bool :=
  match Asn1.expect Asn1.Tag.objectId content with
  | none => false
  | some (_, rest) =>
      let value :=
        match Asn1.expect Asn1.Tag.boolean rest with
        | some ([_], value) => value
        | _ => rest
      (Asn1.expect Asn1.Tag.octetString value).isSome

def isTail (bytes : Bytes) : Bool :=
  let extensions? := do
    let list ← Asn1.expectAll (Asn1.Tag.context 3 true) bytes
    Asn1.values (← Asn1.expectAll Asn1.Tag.sequence list)
  match extensions? with
  | none => bytes == []
  | some extensions =>
      extensions.all fun (tag, content) => tag == Asn1.Tag.sequence && isExtension content

/-! ## The last second -/

def lastOfValidity? (validity : Bytes) : Option Int := do
  let (tag, start, rest) ← Asn1.read validity
  let _ ← Moment.read? tag start
  let (tag, stop, _) ← Asn1.read rest
  Moment.read? tag stop

def lastOfSigned? (signed : Bytes) : Option Int := do
  let rest ← behindVersion? signed
  let (_, rest) ← Asn1.expect Asn1.Tag.integer rest
  let rest ← behindAlgorithm? rest
  -- a name is read as far as it goes, so that whatever is in it will do
  let (_, rest) ← Asn1.expect Asn1.Tag.sequence rest
  let (validity, rest) ← Asn1.expect Asn1.Tag.sequence rest
  let (_, rest) ← Asn1.expect Asn1.Tag.sequence rest
  let (publicKey, rest) ← Asn1.expect Asn1.Tag.sequence rest
  let _ ← behindBits? (← behindAlgorithm? publicKey)
  let rest ← behindUniqueId? 1 rest
  let rest ← behindUniqueId? 2 rest
  if isTail rest then lastOfValidity? validity else none

/-- In seconds since 1970. -/
def lastSecond? (der : Bytes) : Option Int := do
  let (content, _) ← Asn1.expect Asn1.Tag.sequence der
  let (signed, rest) ← Asn1.expect Asn1.Tag.sequence content
  let _ ← behindBits? (← behindAlgorithm? rest)
  lastOfSigned? signed

end RegistryFront.X509
