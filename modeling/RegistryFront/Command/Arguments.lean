import RegistryFront.Environment.Variable
import RegistryFront.StaticPair.Bootstrap
import RegistryFront.Text.Split

/-!
# Arguments of the command line

A task follows options that hold for every task.  Options start with two dashes and have their value
behind an equals sign or in the next argument.  The first thing that is wrong is told.
-/

namespace RegistryFront.Command

inductive Task where
  | bootstrap (location : StaticPair.Location)
  | check
  | groups (names : List String)
  | identity (location : StaticPair.Location) (watch : Bool)
  deriving DecidableEq, Repr

inductive Request where
  | task (task : Task)
  | help
  | version
  deriving DecidableEq, Repr

inductive UsageError where
  | nothing
  | unexpectedArgument (text : String)
  | unexpectedValue (value option : String)
  | unknownTask (name : String)
  | missingTask
  | missingArguments
  | missingValue (usage : String)
  | repeated (usage : String)
  | invalidChoice (value usage : String)
  deriving DecidableEq, Repr

def programName : String := "registry-gate"

def about : String :=
  "Registry Gate - TLS identity and access-policy bootstrap for a container registry"

def UsageError.message : UsageError → String
  | .nothing => about
  | .unexpectedArgument text => "error: unexpected argument '" ++ text ++ "' found"
  | .unexpectedValue value option =>
      "error: unexpected value '" ++ value ++ "' for '" ++ option ++
        "' found; no more were expected"
  | .unknownTask name => "error: unrecognized subcommand '" ++ name ++ "'"
  | .missingTask =>
      "error: '" ++ programName ++ "' requires a subcommand but one was not provided"
  | .missingArguments => "error: the following required arguments were not provided:"
  | .missingValue usage => "error: a value is required for '" ++ usage ++ "' but none was supplied"
  | .repeated usage => "error: the argument '" ++ usage ++ "' cannot be used multiple times"
  | .invalidChoice value usage => "error: invalid value '" ++ value ++ "' for '" ++ usage ++ "'"

/-! ## Options -/

inductive Switch where
  | verbose
  | logFormat
  | certificate
  | key
  | watch
  deriving DecidableEq, Repr

namespace Switch

def name : Switch → String
  | .verbose => "verbose"
  | .logFormat => "log-format"
  | .certificate => "cert"
  | .key => "key"
  | .watch => "watch"

def valueName? : Switch → Option String
  | .verbose => none
  | .logFormat => some "LOG_FORMAT"
  | .certificate => some "CERT"
  | .key => some "KEY"
  | .watch => none

def usage (option : Switch) : String :=
  "--" ++ option.name ++
    match option.valueName? with
    | some value => " <" ++ value ++ ">"
    | none => ""

def check (option : Switch) (value : String) : Except UsageError Unit :=
  if value = "" then .error (.missingValue option.usage)
  else if option = .logFormat ∧ value ≠ "text" ∧ value ≠ "json" then
    .error (.invalidChoice value option.usage)
  else .ok ()

end Switch

inductive TaskName where
  | bootstrap
  | check
  | groups
  | identity
  deriving DecidableEq, Repr

namespace TaskName

def named : List (String × TaskName) :=
  [("bootstrap", .bootstrap), ("check", .check), ("groups", .groups), ("identity", .identity)]

def options : TaskName → List Switch
  | .bootstrap => [.certificate, .key]
  | .check => []
  | .groups => []
  | .identity => [.certificate, .key, .watch]

end TaskName

def generalOptions : List Switch := [.verbose, .logFormat]

/-! ## One argument after the other -/

structure Given where
  options : List (Switch × String)
  words : List String
  deriving DecidableEq, Repr

def Given.add (given : Given) (option : Switch) (value : String) : Except UsageError Given :=
  if given.options.any (·.1 == option) then .error (.repeated option.usage)
  else .ok { given with options := given.options ++ [(option, value)] }

def splitOption (text : String) : String × Option String :=
  let chars := text.toList.drop 2
  match Text.splitFirst? '=' chars with
  | some (name, value) => (String.ofList name, some (String.ofList value))
  | none => (String.ofList chars, none)

def looksLikeOption (text : String) : Bool :=
  text.toList.head? == some '-' && text.length > 1

inductive Stop where
  | help
  | version
  | word (given : Given) (text : String) (rest : List String)
  | done (given : Given)

def takeValue (option : Switch) (value? : Option String) (rest : List String) :
    Except UsageError (String × List String) :=
  match value?, rest with
  | some value, rest => (option.check value).map fun _ => (value, rest)
  | none, value :: rest =>
      if looksLikeOption value then .error (.missingValue option.usage)
      else (option.check value).map fun _ => (value, rest)
  | none, [] => .error (.missingValue option.usage)

def take (allowed : List Switch) (keepWords : Bool) (given : Given) : (fuel : Nat) → List String →
    Except UsageError Stop
  | 0, _ => .ok (.done given)
  | _, [] => .ok (.done given)
  | fuel + 1, text :: rest =>
      if text = "--help" ∨ text.startsWith "-h" then .ok .help
      else if text = "--version" ∨ text.startsWith "-V" then .ok .version
      else if text = "--" then
        if keepWords then .ok (.done { given with words := given.words ++ rest })
        else
          match rest with
          | [] => .ok (.done given)
          | word :: _ => .error (.unexpectedArgument word)
      else if text.startsWith "--" then
        let (name, value?) := splitOption text
        match allowed.find? (·.name == name) with
        | none => .error (.unexpectedArgument ("--" ++ name))
        | some option =>
            if option.valueName?.isSome then do
              let (value, rest) ← takeValue option value? rest
              take allowed keepWords (← given.add option value) fuel rest
            else
              match value? with
              | some value => .error (.unexpectedValue value option.usage)
              | none => do take allowed keepWords (← given.add option "") fuel rest
      else if looksLikeOption text then
        .error (.unexpectedArgument (String.ofList (text.toList.take 2)))
      else if keepWords then
        take allowed keepWords { given with words := given.words ++ [text] } fuel rest
      else .ok (.word given text rest)

def takeAll (allowed : List Switch) (keepWords : Bool) (arguments : List String) :
    Except UsageError Stop :=
  take allowed keepWords ⟨[], []⟩ arguments.length arguments

/-! ## The whole -/

def defaultCertificate : String := "/certs/registry.crt"

def defaultKey : String := "/certs/registry.key"

structure Defaults where
  certificate : Option String
  key : Option String
  deriving DecidableEq, Repr

def Defaults.ofEnvironment (environment : List (List UInt8 × List UInt8)) : Defaults :=
  ⟨Environment.text? environment "REGISTRY_TLS_CERT",
    Environment.text? environment "REGISTRY_TLS_KEY"⟩

def pathOr (given : Given) (option : Switch) (fromEnvironment : Option String) (default : String) :
    Except UsageError String :=
  match given.options.lookup option, fromEnvironment with
  | some path, _ => .ok path
  | none, some path => (option.check path).map fun _ => path
  | none, none => .ok default

def locationOf (defaults : Defaults) (given : Given) : Except UsageError StaticPair.Location := do
  let certificate ← pathOr given .certificate defaults.certificate defaultCertificate
  let key ← pathOr given .key defaults.key defaultKey
  .ok ⟨certificate, key⟩

def finish (defaults : Defaults) (name : TaskName) (given : Given) : Except UsageError Task :=
  match name with
  | .groups =>
      if given.words = [] then .error .missingArguments else .ok (.groups given.words)
  | .bootstrap => (locationOf defaults given).map .bootstrap
  | .check => .ok .check
  | .identity =>
      (locationOf defaults given).map fun location =>
        .identity location (given.options.any (·.1 == .watch))

def readTask (defaults : Defaults) (name : String) (arguments : List String) :
    Except UsageError Request :=
  match TaskName.named.lookup name with
  | none =>
      if name = "help" then .ok .help else .error (.unknownTask name)
  | some task => do
      match ← takeAll (generalOptions ++ task.options) (task = .groups) arguments with
      | .help => .ok .help
      | .version => .ok .version
      | .word _ text _ => .error (.unexpectedArgument text)
      | .done given => (finish defaults task given).map .task

def read (defaults : Defaults) (arguments : List String) : Except UsageError Request :=
  if arguments = [] then .error .nothing
  else do
    match ← takeAll generalOptions false arguments with
    | .help => .ok .help
    | .version => .ok .version
    | .word _ name rest => readTask defaults name rest
    | .done _ => .error .missingTask

end RegistryFront.Command
