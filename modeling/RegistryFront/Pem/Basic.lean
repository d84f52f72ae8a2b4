import RegistryFront.Base64
import RegistryFront.Text.Utf8

/-!
# PEM sections

A section stands between a line `-----BEGIN <label>-----` and a line that starts with
`-----END <label>-----`; its body is base64.  Lines end with either of the two line breaks.  Lines
outside of sections count for nothing, and so do whole sections whose label nobody here handles.  A
section that cannot be read is told as broken, and reading goes on behind it.
-/

namespace RegistryFront.Pem

inductive Kind where
  | certificate
  | publicKey
  | rsaPrivateKey
  | privateKey
  | ecPrivateKey
  | revocationList
  | certificateRequest
  | clientHelloConfig
  deriving DecidableEq, Repr

namespace Kind

def all : List Kind :=
  [.certificate, .publicKey, .rsaPrivateKey, .privateKey, .ecPrivateKey, .revocationList,
    .certificateRequest, .clientHelloConfig]

def label : Kind → String
  | .certificate => "CERTIFICATE"
  | .publicKey => "PUBLIC KEY"
  | .rsaPrivateKey => "RSA PRIVATE KEY"
  | .privateKey => "PRIVATE KEY"
  | .ecPrivateKey => "EC PRIVATE KEY"
  | .revocationList => "X509 CRL"
  | .certificateRequest => "CERTIFICATE REQUEST"
  | .clientHelloConfig => "ECHCONFIG"

def labelBytes (kind : Kind) : Bytes := Text.Utf8.encode kind.label

def ofLabel? (label : Bytes) : Option Kind := all.find? fun kind => kind.labelBytes == label

end Kind

inductive Item where
  | whole (kind : Kind) (body : Bytes)
  | broken
  deriving DecidableEq, Repr

def dashes : Bytes := List.replicate 5 45

def beginMark : Bytes := Text.Utf8.encode "-----BEGIN "

def endMark (label : Bytes) : Bytes := Text.Utf8.encode "-----END " ++ label ++ dashes

def lines : Bytes → List Bytes
  | [] => [[]]
  | b :: rest =>
      if b = 10 ∨ b = 13 then [] :: lines rest
      else
        match lines rest with
        | [] => [[b]]
        | line :: others => (b :: line) :: others

/-- Counts the dashes at the front of a reversed line, blanks between them left aside, and tells what
stands behind the last dash. -/
def leadingDashes : Nat → Bytes → Bytes → Nat × Bytes
  | count, after, [] => (count, after)
  | count, after, b :: rest =>
      if b = 45 then leadingDashes (count + 1) rest rest
      else if b = 32 then leadingDashes count after rest
      else (count, after)

def beginLabel? (line : Bytes) : Option Bytes :=
  let (count, after) := leadingDashes 0 line.reverse line.reverse
  if count = 5 then some (after.reverse.drop beginMark.length) else none

structure Begun where
  label : Bytes
  body : Bytes
  deriving DecidableEq, Repr

def Begun.item? (begun : Begun) : Option Item :=
  (Kind.ofLabel? begun.label).map fun kind =>
    match Base64.decode? begun.body with
    | some body => .whole kind body
    | none => .broken

def scan (begun : Option Begun) : List Bytes → List Item
  | [] => if begun.isSome then [.broken] else []
  | line :: rest =>
      if beginMark.isPrefixOf line then
        match beginLabel? line with
        | none => .broken :: scan none rest
        | some label => scan (some ⟨label, (begun.map (·.body)).getD []⟩) rest
      else
        match begun with
        | none => scan none rest
        | some begun =>
            if (endMark begun.label).isPrefixOf line then begun.item?.toList ++ scan none rest
            else scan (some { begun with body := begun.body ++ line }) rest

def items (text : Bytes) : List Item := scan none (lines text)

/-! ## What is looked for -/

/-- The bodies of the certificates; broken sections are passed over. -/
def certificates (text : Bytes) : List Bytes :=
  (items text).filterMap fun
    | .whole .certificate body => some body
    | _ => none

inductive KeyFormat where
  | pkcs1
  | pkcs8
  | sec1
  deriving DecidableEq, Repr

def KeyFormat.name : KeyFormat → String
  | .pkcs1 => "pkcs1"
  | .pkcs8 => "pkcs8"
  | .sec1 => "sec1"

def Kind.keyFormat? : Kind → Option KeyFormat
  | .rsaPrivateKey => some .pkcs1
  | .privateKey => some .pkcs8
  | .ecPrivateKey => some .sec1
  | _ => none

/-- The first private key, unless something broken comes before it. -/
def firstKey? : List Item → Option (KeyFormat × Bytes)
  | [] => none
  | .broken :: _ => none
  | .whole kind body :: rest =>
      match kind.keyFormat? with
      | some format => some (format, body)
      | none => firstKey? rest

def privateKey? (text : Bytes) : Option (KeyFormat × Bytes) := firstKey? (items text)

end RegistryFront.Pem
