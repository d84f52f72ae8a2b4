import RegistryFront.Base64
import RegistryFront.Json.Writer
import RegistryFront.Keys.Curve
import RegistryFront.Text.Utf8

/-!
# Accounts

An account with an authority: its address there, the key that signs for it, and the addresses that
requests go to.  A challenge is answered by the token together with the thumbprint of the key.
-/

namespace RegistryFront.Acme

structure Endpoints where
  newNonce : String
  newAccount : String
  newOrder : String
  deriving DecidableEq, Repr

structure Account where
  url : String
  key : Keys.CurveKey
  endpoints : Endpoints
  deriving DecidableEq, Repr

/-! ## Key authorizations -/

def urlName (bytes : List UInt8) : String :=
  String.ofList ((Base64.urlSafe.encodeBare bytes).map fun b => Char.ofNat b.toNat)

def coordinates (key : Keys.CurveKey) : List UInt8 × List UInt8 :=
  match key.publicPoint with
  | .affine x y => (Digest.bytesOfNat key.curve.width x, Digest.bytesOfNat key.curve.width y)
  | .infinity => ([], [])

def publicKeyJson (key : Keys.CurveKey) : Json.Value :=
  let (x, y) := coordinates key
  .object [("crv", .string "P-256"), ("kty", .string "EC"), ("x", .string (urlName x)),
    ("y", .string (urlName y))]

def thumbprint (key : Keys.CurveKey) : String :=
  urlName (Digest.sha256 (Text.Utf8.encode (publicKeyJson key).compact))

def keyAuthorization (token : String) (key : Keys.CurveKey) : String :=
  token ++ "." ++ thumbprint key

def authorizationDigest (token : String) (key : Keys.CurveKey) : List UInt8 :=
  Digest.sha256 (Text.Utf8.encode (keyAuthorization token key))

end RegistryFront.Acme
