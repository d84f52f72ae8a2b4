import RegistryFront.Json.Reader
import RegistryFront.Json.Writer
import RegistryFront.Time.Rfc3339

/-!
# The record of a stored certificate

What is kept beside a certificate and its key: when it expires and was issued, for which domains, and
which authority's directory it came from.  Records are JSON texts; older ones name no directory.
-/

namespace RegistryFront.Store

open Time (Instant)

structure Record where
  expires : Instant
  issued : Instant
  domains : List String
  directoryUrl : Option String
  deriving DecidableEq

namespace Record

/-! ## Writing -/

def toJson (record : Record) : Json.Value :=
  .object [
    ("expires", .string (Time.Rfc3339.write record.expires)),
    ("issued", .string (Time.Rfc3339.write record.issued)),
    ("domains", .list (record.domains.map .string)),
    ("directory_url", (record.directoryUrl.map .string).getD .null)]

def write (record : Record) : String := record.toJson.pretty

/-! ## Reading -/

structure Fields where
  expires : Option Instant
  issued : Option Instant
  domains : Option (List String)
  directoryUrl : Option (Option String)

def instant : Json.Step Instant :=
  .stringAs "an RFC 3339 formatted date and time string" fun text =>
    (Time.Rfc3339.read text).mapError fun cause => .other cause.message

def field (name : String) (found : Fields) : Json.Step Fields := do
  match name with
  | "expires" => pure { found with expires := ← .once name found.expires instant }
  | "issued" => pure { found with issued := ← .once name found.issued instant }
  | "domains" =>
      pure { found with domains := ← .once name found.domains (.list .string) }
  | "directory_url" =>
      let url ← .once name found.directoryUrl (.optional .string)
      pure { found with directoryUrl := url }
  | _ => do
      .ignored
      pure found

def finish (found : Fields) : Except Json.Cause Record := do
  let expires ← Json.Step.required "expires" found.expires
  let issued ← Json.Step.required "issued" found.issued
  let domains ← Json.Step.required "domains" found.domains
  .ok ⟨expires, issued, domains, found.directoryUrl.getD none⟩

def inOrder : Json.Step Record := do
  let whole := "struct CertificateMeta with 4 elements"
  let expires ← .nextOf 0 whole instant
  let issued ← .nextOf 1 whole instant
  let domains ← .nextOf 2 whole (.list .string)
  let directoryUrl ← .nextOr 3 none (.optional .string)
  pure ⟨expires, issued, domains, directoryUrl⟩

def step : Json.Step Record :=
  .record {
    description := "struct CertificateMeta"
    start := ⟨none, none, none, none⟩
    field := field
    finish := finish
    inOrder := inOrder }

def read (text : String) : Except Json.Error Record := Json.parse step text

end Record

end RegistryFront.Store
