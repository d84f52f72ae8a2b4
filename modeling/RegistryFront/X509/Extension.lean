import RegistryFront.Asn1.Der
import RegistryFront.Net.Address
import RegistryFront.Text.Utf8
import RegistryFront.X509.Fault

/-!
# Extensions of certificates

What a certificate says beyond its required parts: the names it is for, what its key may be used for,
whether it may issue others, and what an authority is to find in it when it validates a domain.
-/

namespace RegistryFront.X509

structure Extension where
  id : Bytes
  critical : Bool
  value : Bytes
  deriving DecidableEq, Repr

namespace Extension

def keyUsageId : Bytes := Asn1.objectIdContent [2, 5, 29, 15]
def alternativeNamesId : Bytes := Asn1.objectIdContent [2, 5, 29, 17]
def basicConstraintsId : Bytes := Asn1.objectIdContent [2, 5, 29, 19]
def nameConstraintsId : Bytes := Asn1.objectIdContent [2, 5, 29, 30]
def revocationPointsId : Bytes := Asn1.objectIdContent [2, 5, 29, 31]
def extendedUsageId : Bytes := Asn1.objectIdContent [2, 5, 29, 37]
def acmeIdentifierId : Bytes := Asn1.objectIdContent [1, 3, 6, 1, 5, 5, 7, 1, 31]

def write (extension : Extension) : Bytes :=
  Asn1.sequence <|
    Asn1.encode Asn1.Tag.objectId extension.id ::
    (if extension.critical then [Asn1.boolean true] else []) ++ [Asn1.octetString extension.value]

end Extension

/-! ## Names -/

inductive AlternativeName where
  | dns (name : String)
  | ip (bytes : Bytes)
  deriving DecidableEq, Repr

namespace AlternativeName

def dnsTag : UInt8 := Asn1.Tag.context 2 false

def ipTag : UInt8 := Asn1.Tag.context 7 false

def isAscii (text : String) : Bool := text.toList.all fun c => c.toNat < 128

/-- A name that reads as an address is one; any other has to be ASCII. -/
def ofText (text : String) : Except BuildError AlternativeName :=
  match Net.IpAddress.ofText? text with
  | some address => .ok (.ip address.bytes)
  | none => if isAscii text then .ok (.dns text) else .error (.notAscii text)

def write : AlternativeName → Bytes
  | .dns name => Asn1.encode dnsTag (Text.Utf8.encode name)
  | .ip bytes => Asn1.encode ipTag bytes

def ofValue? : UInt8 × Bytes → Option AlternativeName
  | (tag, content) =>
      if tag = dnsTag then (Text.Utf8.decode? content).map .dns
      else if tag = ipTag then some (.ip content)
      else none

def extension (names : List AlternativeName) : Extension :=
  ⟨Extension.alternativeNamesId, false, Asn1.sequence (names.map write)⟩

def readAll? (value : Bytes) : Option (List AlternativeName) := do
  let values ← Asn1.values (← Asn1.expectAll Asn1.Tag.sequence value)
  some (values.filterMap ofValue?)

end AlternativeName

/-! ## Uses of the key -/

inductive KeyUse where
  | digitalSignature
  | nonRepudiation
  | keyEncipherment
  | dataEncipherment
  | keyAgreement
  | keyCertSign
  | crlSign
  | encipherOnly
  | decipherOnly
  deriving DecidableEq, Repr

namespace KeyUse

def all : List KeyUse :=
  [.digitalSignature, .nonRepudiation, .keyEncipherment, .dataEncipherment, .keyAgreement,
    .keyCertSign, .crlSign, .encipherOnly, .decipherOnly]

def describe : KeyUse → String
  | .digitalSignature => "Digital Signature"
  | .nonRepudiation => "Non Repudiation"
  | .keyEncipherment => "Key Encipherment"
  | .dataEncipherment => "Data Encipherment"
  | .keyAgreement => "Key Agreement"
  | .keyCertSign => "Key Cert Sign"
  | .crlSign => "CRL Sign"
  | .encipherOnly => "Encipher Only"
  | .decipherOnly => "Decipher Only"

def bitsOf (b : UInt8) : List Bool := (List.range 8).map fun i => b.toNat.testBit (7 - i)

def byteOf (bits : List Bool) : UInt8 :=
  UInt8.ofNat <| (List.range 8).foldl (fun n i => 2 * n + (if bits.getD i false then 1 else 0)) 0

def extension (uses : List KeyUse) : Extension :=
  let bits := all.map fun use => uses.contains use
  let used := (bits.reverse.dropWhile (· == false)).reverse
  let bytes := if used.length ≤ 8 then [byteOf used] else [byteOf (used.take 8), byteOf (used.drop 8)]
  let spare := 8 * bytes.length - used.length
  ⟨Extension.keyUsageId, true, Asn1.encode Asn1.Tag.bitString (UInt8.ofNat spare :: bytes)⟩

def readAll? (value : Bytes) : Option (List KeyUse) := do
  match ← Asn1.expectAll Asn1.Tag.bitString value with
  | _ :: bytes =>
      let bits := bytes.flatMap bitsOf
      some ((all.zip bits).filterMap fun (use, isSet) => if isSet then some use else none)
  | [] => none

end KeyUse

/-! ### Roles -/

def serverAuthId : Asn1.ObjectId := [1, 3, 6, 1, 5, 5, 7, 3, 1]
def clientAuthId : Asn1.ObjectId := [1, 3, 6, 1, 5, 5, 7, 3, 2]
def anyUsageId : Asn1.ObjectId := [2, 5, 29, 37, 0]

def extendedUsage (roles : List Asn1.ObjectId) : Extension :=
  ⟨Extension.extendedUsageId, false, Asn1.sequence (roles.map Asn1.objectId)⟩

def readExtendedUsage? (value : Bytes) : Option (List Asn1.ObjectId) := do
  let values ← Asn1.values (← Asn1.expectAll Asn1.Tag.sequence value)
  values.mapM fun (tag, content) =>
    if tag = Asn1.Tag.objectId then Asn1.readObjectId content else none

/-! ## Others -/

def basicConstraints (authority : Bool) : Extension :=
  ⟨Extension.basicConstraintsId, true,
    Asn1.sequence (if authority then [Asn1.boolean true] else [])⟩

def readBasicConstraints? (value : Bytes) : Option Bool := do
  match ← Asn1.values (← Asn1.expectAll Asn1.Tag.sequence value) with
  | (tag, content) :: _ => some (tag == Asn1.Tag.boolean && content == [0xFF])
  | [] => some false

def acmeIdentifier (digest : Bytes) : Extension :=
  ⟨Extension.acmeIdentifierId, true, Asn1.octetString digest⟩

end RegistryFront.X509
