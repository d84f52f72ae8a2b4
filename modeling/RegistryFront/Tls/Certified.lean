import RegistryFront.Keys.PrivateKey
import RegistryFront.Tls.Protocol
import RegistryFront.X509.Certificate
import RegistryFront.X509.Fault

/-!
# Certificates ready to be presented

A chain of certificates, the first one being the server's own, and the private key that goes with it.
-/

namespace RegistryFront.Tls

inductive Fault where
  | unexpected (text : String)
  | keyMismatch
  | certificate (fault : X509.Malformed)
  | noCommonProtocol
  | misbehaved (text : String)
  deriving DecidableEq, Repr

def Fault.message : Fault → String
  | .unexpected text => "unexpected error: " ++ text
  | .keyMismatch => "keys may not be consistent: KeyMismatch"
  | .certificate fault => "invalid peer certificate: " ++ fault.name
  | .noCommonProtocol => "peer doesn't support any known protocol"
  | .misbehaved text => "peer misbehaved: " ++ text

structure Certified where
  chain : List Bytes
  key : Keys.PrivateKey
  chain_ne_nil : chain ≠ []
  deriving DecidableEq

inductive PairFault where
  | noCertificates
  | noPrivateKey
  | tls (fault : Fault)
  deriving DecidableEq, Repr

namespace Certified

def leaf (certified : Certified) : Bytes := certified.chain.head certified.chain_ne_nil

def unreadableKey : Fault := .unexpected "failed to parse private key as RSA, ECDSA, or EdDSA"

/-- Puts a chain and an encoded key together; whether they fit is not looked at. -/
def make (chain : List Bytes) (key? : Option (Pem.KeyFormat × Bytes)) : Except PairFault Certified :=
  if h : chain = [] then .error .noCertificates
  else
    match key? with
    | none => .error .noPrivateKey
    | some (format, body) =>
        match Keys.PrivateKey.read? format body with
        | some key => .ok ⟨chain, key, h⟩
        | none => .error (.tls unreadableKey)

def ofPem (chainPem keyPem : Bytes) : Except PairFault Certified :=
  make (Pem.certificates chainPem) (Pem.privateKey? keyPem)

def check (certified : Certified) : Except Fault Unit :=
  match X509.Certificate.read certified.leaf with
  | .error fault => .error (.certificate fault)
  | .ok certificate =>
      if certificate.publicInfo = certified.key.publicInfo then .ok () else .error .keyMismatch

/-- As `ofPem`, and the certificate has to be for the key. -/
def ofMatchingPem (chainPem keyPem : Bytes) : Except PairFault Certified := do
  let certified ← ofPem chainPem keyPem
  match certified.check with
  | .ok () => .ok certified
  | .error fault => .error (.tls fault)

end Certified

end RegistryFront.Tls
