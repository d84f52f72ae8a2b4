import RegistryFront.Environment.Value
import RegistryFront.Environment.Variable

/-!
# Configuration of the certificate authority

Eight variables, all starting with `REGISTRY_ACME_`, tell whether a certificate is to be obtained from
an authority, for which domains and how.  The authority is used when the flag says so or at least one
domain is listed.
-/

namespace RegistryFront.Acme

open Environment

inductive Field where
  | domains
  | enable
  | email
  | ca
  | caRoot
  | storage
  | httpPort
  | tlsAlpnPort
  deriving DecidableEq, Repr

namespace Field

def all : List Field :=
  [.domains, .enable, .email, .ca, .caRoot, .storage, .httpPort, .tlsAlpnPort]

def name : Field → String
  | .domains => "domains"
  | .enable => "enable"
  | .email => "email"
  | .ca => "ca"
  | .caRoot => "ca_root"
  | .storage => "storage"
  | .httpPort => "http_port"
  | .tlsAlpnPort => "tls_alpn_port"

end Field

def variableStart : String := "REGISTRY_ACME_"

def Field.variableName (field : Field) : String :=
  variableStart ++ field.name.map Char.toUpper

/-! ## From variables to fields -/

/-- Takes `start` off the front as often as it is there. -/
def stripAll (start : List Char) (text : List Char) : List Char :=
  if _h : start ≠ [] ∧ start.isPrefixOf text then
    stripAll start (text.drop start.length)
  else text
termination_by text.length
decreasing_by
  obtain ⟨hne, hpre⟩ := _h
  have hle := (List.isPrefixOf_iff_prefix.mp hpre).length_le
  have := List.length_pos_iff.mpr hne
  simp only [List.length_drop]
  omega

/-- The field a variable of this name sets.  The start of the name counts as written, the rest in
either case; only ASCII letters matter for that, as no other letter has a field's letter as its
lowercase form. -/
def Field.ofVariable? (name : String) : Option Field :=
  if variableStart.toList.isPrefixOf name.toList then
    let rest := (stripAll variableStart.toList name.toList).map Char.toLower
    Field.all.find? fun field => field.name.toList == rest
  else none

abbrev RawFields := List (Field × String)

/-- Two variables for one field are an error, found at the second one. -/
def gatherOnto (found : RawFields) : List Variable → Except ConfigError RawFields
  | [] => .ok found
  | (name, value) :: rest =>
      match Field.ofVariable? name with
      | none => gatherOnto found rest
      | some field =>
          if found.any (·.1 == field) then .error (.gather (.duplicateField field.name))
          else gatherOnto (found ++ [(field, value)]) rest

def gather (vars : List Variable) : Except ConfigError RawFields := gatherOnto [] vars

/-! ## The configuration -/

/-- Where an option is missing the issuer of certificates chooses. -/
structure Config where
  domains : List String
  email : Option String
  ca : Option String
  caRootPath : Option String
  storagePath : Option String
  httpPort : Option Nat
  tlsAlpnPort : Option Nat
  domains_ne_nil : domains ≠ []
  deriving DecidableEq, Repr

namespace Config

def primaryDomain (config : Config) : String :=
  config.domains.head config.domains_ne_nil

def ofRawFields (raw : RawFields) : Except ConfigError (Option Config) := do
  let value (field : Field) : Option String := raw.lookup field
  let domains := splitList ((value .domains).getD "")
  let enabled ← parseFlag Field.enable.variableName (value .enable) false
  if h : domains = [] then
    if enabled then .error (.missingDomains Field.domains.variableName Field.enable.variableName)
    else .ok none
  else
    let httpPort ← parsePort Field.httpPort.variableName (value .httpPort)
    let tlsAlpnPort ← parsePort Field.tlsAlpnPort.variableName (value .tlsAlpnPort)
    .ok (some {
      domains := domains
      email := trimmed? (value .email)
      ca := trimmed? (value .ca)
      caRootPath := trimmed? (value .caRoot)
      storagePath := trimmed? (value .storage)
      httpPort := httpPort
      tlsAlpnPort := tlsAlpnPort
      domains_ne_nil := h })

def ofVariables (vars : List Variable) : Except ConfigError (Option Config) :=
  gather vars >>= ofRawFields

def ofEnvironment (environment : List (Bytes × Bytes)) : Except ConfigError (Option Config) :=
  startingWith variableStart environment >>= ofVariables

end Config

end RegistryFront.Acme
