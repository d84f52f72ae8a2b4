import RegistryFront.Json.Fault
import RegistryFront.Text.Quoted

/-!
# Errors of the exchange with the authority
-/

namespace RegistryFront.Acme

structure Problem where
  kind : Option String
  detail : Option String
  status : Option Nat
  deriving DecidableEq, Repr

namespace Problem

def message (problem : Problem) : String :=
  let detail := match problem.detail with
    | some detail => ": " ++ detail
    | none => ""
  let kind := match problem.kind with
    | some kind => " (" ++ kind ++ ")"
    | none => ""
  "API error" ++ detail ++ kind

def optional (text : α → String) : Option α → String
  | some value => "Some(" ++ text value ++ ")"
  | none => "None"

def describe (problem : Problem) : String :=
  "Problem \x7b type: " ++ optional Text.quoted problem.kind ++
    ", detail: " ++ optional Text.quoted problem.detail ++
    ", status: " ++ optional toString problem.status ++ " \x7d"

end Problem

inductive ExchangeError where
  | refused (problem : Problem)
  | json (cause : Json.Error)
  | missing (what : String)
  | http (text : String)
  | keyBytes (text : String)
  | other (text : String)

def ExchangeError.message : ExchangeError → String
  | .refused problem => problem.message
  | .json cause => "failed to (de)serialize JSON: " ++ cause.message
  | .missing what => "missing data: " ++ what
  | .http text => "HTTP request failure: " ++ text
  | .keyBytes text => "invalid key bytes: " ++ text
  | .other text => text

end RegistryFront.Acme
