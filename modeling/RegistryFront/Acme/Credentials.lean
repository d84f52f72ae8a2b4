import RegistryFront.Acme.Account
import RegistryFront.Acme.Problem
import RegistryFront.Base64.Strict
import RegistryFront.Json.Reader
import RegistryFront.Keys.PrivateKey

/-!
# Credentials of an account

What is kept of an account: its address, its key, and the directory of the authority.  Credentials are
JSON texts; old ones hold the addresses for requests instead of the directory.
-/

namespace RegistryFront.Acme

structure Credentials where
  id : String
  keyBytes : List UInt8
  directory : Option String
  endpoints : Option Endpoints
  deriving DecidableEq, Repr

/-! ## Reading the addresses for requests -/

namespace Endpoints

structure Fields where
  newNonce : Option String
  newAccount : Option String
  newOrder : Option String
  newAuthorization : Option (Option String)
  revokeCertificate : Option (Option String)
  keyChange : Option (Option String)

def field (name : String) (found : Fields) : Json.Step Fields := do
  match name with
  | "newNonce" => pure { found with newNonce := ← .once name found.newNonce .string }
  | "newAccount" => pure { found with newAccount := ← .once name found.newAccount .string }
  | "newOrder" => pure { found with newOrder := ← .once name found.newOrder .string }
  | "newAuthz" =>
      let url ← .once name found.newAuthorization (.optional .string)
      pure { found with newAuthorization := url }
  | "revokeCert" =>
      let url ← .once name found.revokeCertificate (.optional .string)
      pure { found with revokeCertificate := url }
  | "keyChange" =>
      pure { found with keyChange := ← .once name found.keyChange (.optional .string) }
  | _ => do
      .ignored
      pure found

def finish (found : Fields) : Except Json.Cause Endpoints := do
  let newNonce ← Json.Step.required "newNonce" found.newNonce
  let newAccount ← Json.Step.required "newAccount" found.newAccount
  let newOrder ← Json.Step.required "newOrder" found.newOrder
  .ok ⟨newNonce, newAccount, newOrder⟩

def inOrder : Json.Step Endpoints := do
  let whole := "struct DirectoryUrls with 6 elements"
  let newNonce ← .nextOf 0 whole .string
  let newAccount ← .nextOf 1 whole .string
  let newOrder ← .nextOf 2 whole .string
  let _ ← .nextOf 3 whole (.optional .string)
  let _ ← .nextOf 4 whole (.optional .string)
  let _ ← .nextOf 5 whole (.optional .string)
  pure ⟨newNonce, newAccount, newOrder⟩

def step : Json.Step Endpoints :=
  .record {
    description := "struct DirectoryUrls"
    start := ⟨none, none, none, none, none, none⟩
    field := field
    finish := finish
    inOrder := inOrder }

end Endpoints

namespace Credentials

/-! ## Writing -/

def toJson (credentials : Credentials) : Json.Value :=
  .object [
    ("id", .string credentials.id),
    ("key_pkcs8", .string (urlName credentials.keyBytes)),
    ("directory", (credentials.directory.map .string).getD .null)]

def write (credentials : Credentials) : String := credentials.toJson.pretty

/-! ## Reading -/

structure Fields where
  id : Option String
  keyBytes : Option (List UInt8)
  directory : Option (Option String)
  endpoints : Option (Option Endpoints)

def keyStep : Json.Step (List UInt8) :=
  .stringAs "a base64-encoded PKCS#8 private key" fun text =>
    (Base64.decodeStrict (Text.Utf8.encode text)).mapError fun fault => .other fault.message

def field (name : String) (found : Fields) : Json.Step Fields := do
  match name with
  | "id" => pure { found with id := ← .once name found.id .string }
  | "key_pkcs8" => pure { found with keyBytes := ← .once name found.keyBytes keyStep }
  | "directory" =>
      pure { found with directory := ← .once name found.directory (.optional .string) }
  | "urls" =>
      pure { found with endpoints := ← .once name found.endpoints (.optional Endpoints.step) }
  | _ => do
      .ignored
      pure found

def finish (found : Fields) : Except Json.Cause Credentials := do
  let id ← Json.Step.required "id" found.id
  let keyBytes ← Json.Step.required "key_pkcs8" found.keyBytes
  .ok ⟨id, keyBytes, found.directory.getD none, found.endpoints.getD none⟩

def inOrder : Json.Step Credentials := do
  let whole := "struct AccountCredentials with 4 elements"
  let id ← .nextOf 0 whole .string
  let bytes ← .nextOf 1 whole keyStep
  let directory ← .nextOf 2 whole (.optional .string)
  let endpoints ← .nextOf 3 whole (.optional Endpoints.step)
  pure ⟨id, bytes, directory, endpoints⟩

def step : Json.Step Credentials :=
  .record {
    description := "struct AccountCredentials"
    start := ⟨none, none, none, none⟩
    field := field
    finish := finish
    inOrder := inOrder }

def read (text : String) : Except Json.Error Credentials := Json.parse step text

/-! ## The key -/

def key (credentials : Credentials) : Except ExchangeError Keys.CurveKey :=
  match Keys.PrivateKey.readWrapped credentials.keyBytes with
  | some (.curve key) =>
      if key.curve = .p256 then .ok key else .error (.keyBytes "WrongAlgorithm")
  | some _ => .error (.keyBytes "WrongAlgorithm")
  | none => .error (.keyBytes "InvalidEncoding")

def ofAccount (account : Account) (directoryUrl : String) : Credentials :=
  ⟨account.url, (Keys.PrivateKey.curve account.key).write, some directoryUrl, none⟩

end Credentials

end RegistryFront.Acme
