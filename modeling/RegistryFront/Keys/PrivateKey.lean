import RegistryFront.Keys.Curve
import RegistryFront.Keys.Edwards
import RegistryFront.Keys.Rsa
import RegistryFront.Pem.Basic

/-!
# Private keys

A private key of one of three kinds, how it is written, and the public key that goes with it.
-/

namespace RegistryFront.Keys

inductive PrivateKey where
  | rsa (key : RsaKey)
  | curve (key : CurveKey)
  | edwards (seed : Bytes)
  deriving DecidableEq, Repr

/-! ## Kinds of keys -/

def rsaId : Asn1.ObjectId := [1, 2, 840, 113549, 1, 1, 1]

def curveId : Asn1.ObjectId := [1, 2, 840, 10045, 2, 1]

def edwardsId : Asn1.ObjectId := [1, 3, 101, 112]

namespace PrivateKey

def algorithm : PrivateKey → Bytes
  | .rsa _ => Asn1.sequence [Asn1.objectId rsaId, Asn1.null]
  | .curve key => Asn1.sequence [Asn1.objectId curveId, Asn1.objectId key.curve.objectId]
  | .edwards _ => Asn1.sequence [Asn1.objectId edwardsId]

def publicBytes : PrivateKey → Bytes
  | .rsa key => key.writePublic
  | .curve key => key.curve.writePoint key.publicPoint
  | .edwards seed => Edwards.publicKey seed

def publicInfo (key : PrivateKey) : Bytes :=
  Asn1.sequence [key.algorithm, Asn1.bitString key.publicBytes]

/-! ## Writing -/

def writeCurve (key : CurveKey) : Bytes :=
  Asn1.sequence [Asn1.natural 1, Asn1.octetString (Digest.bytesOfNat key.curve.width key.secret),
    Asn1.encode (Asn1.Tag.context 1 true) (Asn1.bitString (key.curve.writePoint key.publicPoint))]

def writeBare : PrivateKey → Bytes
  | .rsa key => key.numbers.write
  | .curve key => writeCurve key
  | .edwards seed => Asn1.octetString seed

def write (key : PrivateKey) : Bytes :=
  Asn1.sequence [Asn1.natural 0, key.algorithm, Asn1.octetString key.writeBare]

/-! ## Reading -/

def optional (tag : UInt8) : List (UInt8 × Bytes) → Option Bytes × List (UInt8 × Bytes)
  | (found, content) :: rest =>
      if found = tag then (some content, rest) else (none, (found, content) :: rest)
  | [] => (none, [])

def readRsa (bytes : Bytes) : Option PrivateKey := do
  let key ← RsaKey.ofNumbers? (← Rsa.Numbers.read bytes)
  some (.rsa key)

def isPublicOf (key : CurveKey) (bytes : Bytes) : Bool :=
  let point := key.publicPoint
  bytes == key.curve.writePoint point || bytes == key.curve.writeCompressed point

/-- A key on the curve; curve and public key may be given along and have to be right. -/
def readCurve (curve : Curve) (bytes : Bytes) : Option PrivateKey := do
  let values ← Asn1.values (← Asn1.expectAll Asn1.Tag.sequence bytes)
  match values with
  | (version, one) :: (octets, secret) :: rest =>
      if version ≠ Asn1.Tag.integer ∨ Asn1.readNatural one ≠ some 1 ∨
          octets ≠ Asn1.Tag.octetString then none
      else
        let key ← CurveKey.make? curve (Digest.natOfBytes secret)
        let (named, rest) := optional (Asn1.Tag.context 0 true) rest
        let (given, rest) := optional (Asn1.Tag.context 1 true) rest
        let curveFits := named.all fun name => name == Asn1.objectId curve.objectId
        let keyFits := given.all fun content =>
          ((Asn1.expectAll Asn1.Tag.bitString content).bind Asn1.readBits).any (isPublicOf key)
        if curveFits && keyFits && rest.isEmpty then some (.curve key) else none
  | _ => none

def readEdwards (bytes : Bytes) : Option PrivateKey := do
  let seed ← Asn1.expectAll Asn1.Tag.octetString bytes
  if seed.length = 32 then some (.edwards seed) else none

def readKind (id : Asn1.ObjectId) (parameters : List (UInt8 × Bytes)) (bare : Bytes) :
    Option PrivateKey :=
  if id = rsaId then
    if parameters = [(Asn1.Tag.null, [])] then readRsa bare else none
  else if id = curveId then
    match parameters with
    | [(tag, name)] =>
        if tag ≠ Asn1.Tag.objectId then none
        else
          match Curve.all.find? fun curve => Asn1.objectIdContent curve.objectId == name with
          | some named => readCurve named bare
          | none => none
    | _ => none
  else if id = edwardsId then
    if parameters = [] then readEdwards bare else none
  else none

/-- What may follow the key: attributes, and in the second version its public key. -/
def isTail (version : Nat) (rest : List (UInt8 × Bytes)) : Bool :=
  let (_, rest) := optional (Asn1.Tag.context 0 true) rest
  let (_, rest) := if version = 1 then optional (Asn1.Tag.context 1 false) rest else (none, rest)
  rest.isEmpty

def readWrapped (bytes : Bytes) : Option PrivateKey := do
  let values ← Asn1.values (← Asn1.expectAll Asn1.Tag.sequence bytes)
  match values with
  | (t1, version) :: (t2, algorithm) :: (t3, bare) :: rest =>
      let version ← Asn1.readNatural version
      if t1 ≠ Asn1.Tag.integer ∨ 1 < version ∨ t2 ≠ Asn1.Tag.sequence ∨
          t3 ≠ Asn1.Tag.octetString ∨ isTail version rest = false then none
      else
        match ← Asn1.values algorithm with
        | (tag, name) :: parameters =>
            if tag = Asn1.Tag.objectId then
              readKind (← Asn1.readObjectId name) parameters bare
            else none
        | [] => none
  | _ => none

def read? (format : Pem.KeyFormat) (bytes : Bytes) : Option PrivateKey :=
  match format with
  | .pkcs1 => readRsa bytes
  | .pkcs8 => readWrapped bytes
  | .sec1 => Curve.all.findSome? fun curve => readCurve curve bytes

end PrivateKey

end RegistryFront.Keys
