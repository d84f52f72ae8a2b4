import RegistryFront.Startup.Error

/-!
# How errors are reported

An error is reported with the errors that caused it, the outermost first.  What wraps another error
without words of its own is left out.
-/

namespace RegistryFront

def StoreError.causes (error : StoreError) : List String :=
  error.message ::
    match error with
    | .file cause => [cause.message]
    | .record cause => [cause.message]

namespace Acme

def ExchangeError.causes (error : ExchangeError) : List String :=
  error.message ::
    match error with
    | .json cause => [cause.message]
    | .http text => [text]
    | .keyBytes text => [text]
    | _ => []

def IssueError.causes (error : IssueError) : List String :=
  error.message ::
    match error with
    | .exchange cause => cause.causes
    | .responder _ cause => [cause.message]
    | .certificateGeneration cause => [cause.message]
    | .tls fault => [fault.message]
    | .store cause => cause.causes
    | .serialization cause => [cause.message]
    | _ => []

end Acme

def StaticPair.Error.causes (error : StaticPair.Error) : List String :=
  error.message ::
    match error with
    | .createDirectory _ cause => [cause.message]
    | .write _ cause => [cause.message]
    | .read _ cause => [cause.message]
    | .keyGeneration text => [text]
    | .random text => [text]
    | .certificate cause => [cause.message]
    | .tls fault => [fault.message]
    | _ => []

def Environment.ConfigError.causes (error : Environment.ConfigError) : List String :=
  error.message ::
    match error with
    | .gather cause => [cause.message]
    | _ => []

namespace Startup

def SetupError.causes : SetupError → List String
  | .config cause => (SetupError.config cause).message :: cause.causes
  | .caRoot cause => (SetupError.caRoot cause).message :: cause.causes
  | .issuer cause => cause.causes

def StartupError.causes (error : StartupError) : List String :=
  error.message ::
    match error with
    | .acme cause => cause.causes
    | .static cause => cause.causes

end Startup

namespace Command

def indentedBy (indent text : String) : String := text.replace "\n" ("\n" ++ indent)

def padNumber (n : Nat) : String :=
  let digits := toString n
  String.ofList (List.replicate (5 - digits.length) ' ') ++ digits

def causeLines : List String → List String
  | [cause] => ["    " ++ indentedBy "    " cause]
  | causes => causes.zipIdx.map fun (cause, n) =>
      padNumber n ++ ": " ++ indentedBy "       " cause

def reportText (failed : String) (causes : List String) : String :=
  "Error: " ++ failed ++
    (if causes = [] then ""
    else "\n\nCaused by:\n" ++ "\n".intercalate (causeLines causes)) ++ "\n"

end Command

end RegistryFront
