import RegistryFront.Access.Group
import RegistryFront.Acme.Config
import RegistryFront.Command.Arguments
import RegistryFront.Command.Report
import RegistryFront.Json.Writer
import RegistryFront.Startup.Identity

/-!
# What the tasks do

Every task prints lines and ends well, or reports an error.
-/

namespace RegistryFront

def Acme.Config.toJson (config : Acme.Config) : Json.Value :=
  let text (value : Option String) : Json.Value := (value.map .string).getD .null
  let port (value : Option Nat) : Json.Value := (value.map fun n => .number n).getD .null
  .object [
    ("domains", .list (config.domains.map .string)),
    ("email", text config.email),
    ("ca", text config.ca),
    ("ca_root_path", text config.caRootPath),
    ("storage_path", text config.storagePath),
    ("alt_http_port", port config.httpPort),
    ("alt_tls_alpn_port", port config.tlsAlpnPort)]

def Access.Capability.toJson (capability : Access.Capability) : Json.Value :=
  .object [
    ("namespace", .string capability.space),
    ("pull_only", .bool capability.pullOnly),
    ("delete_allowed", .bool capability.deleteAllowed)]

namespace Command

open Files (Drive)

structure Output where
  code : Nat
  out : String
  err : String
  deriving DecidableEq, Repr

namespace Output

def done (out : String) : Output := ⟨0, out, ""⟩

def failed (what : String) (causes : List String) : Output := ⟨1, "", reportText what causes⟩

def misused (error : UsageError) : Output := ⟨2, "", error.message ++ "\n"⟩

end Output

def bootstrap (location : StaticPair.Location) (now : Time.Instant) (entropy : Keys.Entropy)
    (drive : Drive) : Output × Drive :=
  let (result, drive) := StaticPair.ensure location now entropy drive
  let output := match result with
    | .ok .alreadyPresent => .done ("present: " ++ location.certificate ++ "\n")
    | .ok .generated => .done ("generated: " ++ location.certificate ++ "\n")
    | .error cause =>
        .failed ("Failed to bootstrap self-signed certificate at " ++ location.certificate)
          cause.causes
  (output, drive)

def check (environment : List (List UInt8 × List UInt8)) : Output :=
  match Acme.Config.ofEnvironment environment with
  | .ok (some config) => .done (config.toJson.pretty ++ "\n")
  | .ok none => .done "disabled\n"
  | .error cause => .failed "Invalid ACME configuration" cause.causes

def groupLine (name : String) : String :=
  match Access.resolveGroup? name with
  | some capability => name ++ "\t" ++ capability.toJson.compact ++ "\n"
  | none => name ++ "\tdeny\n"

def groups (names : List String) : Output := .done (String.join (names.map groupLine))

def identity (issuer : Startup.Issuer σ) (around : Startup.Surroundings)
    (environment : List (List UInt8 × List UInt8)) (location : StaticPair.Location)
    (world : Startup.World σ) : Output × Option Startup.ServerIdentity × Startup.World σ :=
  let (result, world) :=
    Startup.prepareFromEnvironment issuer around environment location world
  match result with
  | .ok identity => (.done (identity.source ++ "\n"), some identity, world)
  | .error cause => (.failed "Failed to prepare TLS identity" cause.causes, none, world)

structure Process (σ : Type) where
  environment : List (List UInt8 × List UInt8)
  around : Startup.Surroundings
  issuer : Startup.Issuer σ

def perform (process : Process σ) (world : Startup.World σ) :
    Task → Output × Option Startup.ServerIdentity × Startup.World σ
  | .bootstrap location =>
      let (output, drive) :=
        bootstrap location process.around.now process.around.entropy world.drive
      (output, none, { world with drive := drive })
  | .check => (check process.environment, none, world)
  | .groups names => (groups names, none, world)
  | .identity location _ =>
      identity process.issuer process.around process.environment location world

def versionText : String := programName ++ " 0.2.0\n"

def answer (process : Process σ) (world : Startup.World σ) :
    Except UsageError Request → Output × Option Startup.ServerIdentity × Startup.World σ
  | .error cause => (.misused cause, none, world)
  | .ok .help => (.done (about ++ "\n"), none, world)
  | .ok .version => (.done versionText, none, world)
  | .ok (.task task) => perform process world task

end Command

end RegistryFront
