import RegistryFront.Acme.Authority
import RegistryFront.Acme.Credentials
import RegistryFront.Json.Choice

/-!
# How an authority writes its answers

Problems, orders, authorizations and challenges as JSON texts.
-/

namespace RegistryFront.Acme

open Json (Step)

/-! ## Problems -/

namespace Problem

structure Fields where
  kind : Option (Option String)
  detail : Option (Option String)
  status : Option (Option Nat)

def field (name : String) (found : Fields) : Step Fields := do
  match name with
  | "type" => pure { found with kind := ← .once name found.kind (.optional .string) }
  | "detail" => pure { found with detail := ← .once name found.detail (.optional .string) }
  | "status" => pure { found with status := ← .once name found.status (.optional .small) }
  | _ => do
      .ignored
      pure found

def inOrder : Step Problem := do
  let whole := "struct Problem with 3 elements"
  let kind ← .nextOf 0 whole (.optional .string)
  let detail ← .nextOf 1 whole (.optional .string)
  let status ← .nextOf 2 whole (.optional .small)
  pure ⟨kind, detail, status⟩

def step : Step Problem :=
  .record {
    description := "struct Problem"
    start := ⟨none, none, none⟩
    field := field
    finish := fun found =>
      .ok ⟨found.kind.getD none, found.detail.getD none, found.status.getD none⟩
    inOrder := inOrder }

end Problem

/-! ## Orders -/

def OrderStatus.named : List (String × OrderStatus) :=
  [("pending", .pending), ("ready", .ready), ("processing", .processing), ("valid", .valid),
    ("invalid", .invalid)]

namespace OrderState

structure Fields where
  status : Option OrderStatus
  authorizationUrls : Option (List String)
  problem : Option (Option Problem)
  finalizeUrl : Option String
  certificateUrl : Option (Option String)

def field (name : String) (found : Fields) : Step Fields := do
  match name with
  | "status" => pure { found with status := ← .once name found.status (.choice OrderStatus.named) }
  | "authorizations" =>
      pure { found with authorizationUrls := ← .once name found.authorizationUrls (.list .string) }
  | "error" => pure { found with problem := ← .once name found.problem (.optional Problem.step) }
  | "finalize" => pure { found with finalizeUrl := ← .once name found.finalizeUrl .string }
  | "certificate" =>
      pure { found with certificateUrl := ← .once name found.certificateUrl (.optional .string) }
  | _ => do
      .ignored
      pure found

def finish (found : Fields) : Except Json.Cause OrderState := do
  let status ← Step.required "status" found.status
  let urls ← Step.required "authorizations" found.authorizationUrls
  let finalizeUrl ← Step.required "finalize" found.finalizeUrl
  .ok ⟨status, urls, found.problem.getD none, finalizeUrl, found.certificateUrl.getD none⟩

def inOrder : Step OrderState := do
  let whole := "struct OrderState with 5 elements"
  let status ← .nextOf 0 whole (.choice OrderStatus.named)
  let urls ← .nextOf 1 whole (.list .string)
  let problem ← .nextOf 2 whole (.optional Problem.step)
  let finalizeUrl ← .nextOf 3 whole .string
  let certificateUrl ← .nextOf 4 whole (.optional .string)
  pure ⟨status, urls, problem, finalizeUrl, certificateUrl⟩

def step : Step OrderState :=
  .record {
    description := "struct OrderState"
    start := ⟨none, none, none, none, none⟩
    field := field
    finish := finish
    inOrder := inOrder }

end OrderState

/-! ## Challenges -/

def ChallengeKind.named : List (String × ChallengeKind) :=
  [("http-01", .http01), ("dns-01", .dns01), ("tls-alpn-01", .tlsAlpn01)]

def Challenge.statusNamed : List (String × Unit) :=
  [("pending", ()), ("processing", ()), ("valid", ()), ("invalid", ())]

namespace Challenge

structure Fields where
  kind : Option ChallengeKind
  url : Option String
  token : Option String
  status : Option Unit
  problem : Option (Option Problem)

def field (name : String) (found : Fields) : Step Fields := do
  match name with
  | "type" => pure { found with kind := ← .once name found.kind (.choice ChallengeKind.named) }
  | "url" => pure { found with url := ← .once name found.url .string }
  | "token" => pure { found with token := ← .once name found.token .string }
  | "status" => pure { found with status := ← .once name found.status (.choice statusNamed) }
  | "error" => pure { found with problem := ← .once name found.problem (.optional Problem.step) }
  | _ => do
      .ignored
      pure found

def finish (found : Fields) : Except Json.Cause Challenge := do
  let kind ← Step.required "type" found.kind
  let url ← Step.required "url" found.url
  let token ← Step.required "token" found.token
  let _ ← Step.required "status" found.status
  .ok ⟨kind, url, token⟩

def inOrder : Step Challenge := do
  let whole := "struct Challenge with 5 elements"
  let kind ← .nextOf 0 whole (.choice ChallengeKind.named)
  let url ← .nextOf 1 whole .string
  let token ← .nextOf 2 whole .string
  let _ ← .nextOf 3 whole (.choice statusNamed)
  let _ ← .nextOf 4 whole (.optional Problem.step)
  pure ⟨kind, url, token⟩

def step : Step Challenge :=
  .record {
    description := "struct Challenge"
    start := ⟨none, none, none, none, none⟩
    field := field
    finish := finish
    inOrder := inOrder }

end Challenge

/-! ## Authorizations -/

def AuthorizationStatus.named : List (String × AuthorizationStatus) :=
  [("pending", .pending), ("valid", .valid), ("invalid", .invalid), ("revoked", .revoked),
    ("expired", .expired)]

structure Identifier where
  kind : Option Unit
  value : Option String

namespace Identifier

def named : List (String × Unit) := [("dns", ())]

def field (name : String) (found : Identifier) : Step Identifier := do
  match name with
  | "type" => pure { found with kind := ← .once name found.kind (.choice named) }
  | "value" => pure { found with value := ← .once name found.value .string }
  | _ => do
      .ignored
      pure found

def finish (found : Identifier) : Except Json.Cause String := do
  let _ ← Step.required "type" found.kind
  Step.required "value" found.value

def inOrder : Step String := do
  let whole := "adjacently tagged enum Identifier"
  let _ ← .nextOf 0 whole (.choice named)
  .nextOf 1 whole .string

def step : Step String :=
  .record {
    description := "adjacently tagged enum Identifier"
    start := ⟨none, none⟩
    field := field
    finish := finish
    inOrder := inOrder }

end Identifier

namespace Authorization

structure Fields where
  domain : Option String
  status : Option AuthorizationStatus
  challenges : Option (List Challenge)

def field (name : String) (found : Fields) : Step Fields := do
  match name with
  | "identifier" => pure { found with domain := ← .once name found.domain Identifier.step }
  | "status" =>
      pure { found with status := ← .once name found.status (.choice AuthorizationStatus.named) }
  | "challenges" =>
      pure { found with challenges := ← .once name found.challenges (.list Challenge.step) }
  | _ => do
      .ignored
      pure found

def finish (found : Fields) : Except Json.Cause Authorization := do
  let domain ← Step.required "identifier" found.domain
  let status ← Step.required "status" found.status
  let challenges ← Step.required "challenges" found.challenges
  .ok ⟨domain, status, challenges⟩

def inOrder : Step Authorization := do
  let whole := "struct Authorization with 3 elements"
  let domain ← .nextOf 0 whole Identifier.step
  let status ← .nextOf 1 whole (.choice AuthorizationStatus.named)
  let challenges ← .nextOf 2 whole (.list Challenge.step)
  pure ⟨domain, status, challenges⟩

def step : Step Authorization :=
  .record {
    description := "struct Authorization"
    start := ⟨none, none, none⟩
    field := field
    finish := finish
    inOrder := inOrder }

end Authorization

end RegistryFront.Acme
