import RegistryFront.Acme.Config
import RegistryFront.Acme.Settings
import RegistryFront.Files.Action
import RegistryFront.Startup.Error
import RegistryFront.Tls.Handshake
import RegistryFront.Trust.Roots

/-!
# Certificates from an authority

The configuration tells whether an authority is to be asked.  If so, what the issuer of certificates
has to know is gathered and the issuer is asked once; the protocols of regular traffic are put before
those it comes with.
-/

namespace RegistryFront.Startup

open Files (Drive)
open X509 (Anchor)

structure World (σ : Type) where
  drive : Drive
  inner : σ

structure Issuer (σ : Type) where
  setup : Acme.Settings (List Anchor) → List String → World σ →
    Except Acme.IssueError Tls.ServerSetup × World σ

abbrev Question := Acme.Settings (List Anchor) × List String

namespace Issuer

variable {σ : Type}

def fixed (result : Except Acme.IssueError Tls.ServerSetup) : Issuer σ :=
  ⟨fun _ _ world => (result, world)⟩

def recording (issuer : Issuer σ) : Issuer (List Question × σ) :=
  ⟨fun settings domains world =>
    let (questions, inner) := world.inner
    let (result, after) := issuer.setup settings domains ⟨world.drive, inner⟩
    (result, ⟨after.drive, (questions ++ [(settings, domains)], after.inner)⟩)⟩

end Issuer

/-- The settings for a configuration; a file of roots is read here. -/
def settingsFor (system : List Anchor) (disk : Files.Disk) (config : Acme.Config) :
    Except SetupError (Acme.Settings (List Anchor)) := do
  let trusted ← match config.caRootPath with
    | none => .ok none
    | some path => ((Trust.rootsWith system disk path).map some).mapError .caRoot
  .ok {
    email := config.email
    directoryUrl? := config.ca
    httpPort? := config.httpPort
    tlsAlpnPort := config.tlsAlpnPort.getD Acme.Settings.defaultTlsAlpnPort
    trustedRoots := trusted
    storagePath := config.storagePath }

variable {σ : Type}

def setupFor (issuer : Issuer σ) (system : List Anchor) (config : Acme.Config) (world : World σ) :
    Except SetupError Tls.ServerSetup × World σ :=
  match settingsFor system world.drive.disk config with
  | .error cause => (.error cause, world)
  | .ok settings =>
      let (result, world) := issuer.setup settings config.domains world
      match result with
      | .error cause => (.error (.issuer cause), world)
      | .ok setup =>
          (.ok { setup with protocols := Tls.Protocol.regularFirst setup.protocols }, world)

/-- None when no authority is to be asked. -/
def setupFrom (issuer : Issuer σ) (system : List Anchor)
    (config : Except Environment.ConfigError (Option Acme.Config)) (world : World σ) :
    Except SetupError (Option Tls.ServerSetup) × World σ :=
  match config with
  | .error cause => (.error (.config cause), world)
  | .ok none => (.ok none, world)
  | .ok (some config) =>
      let (result, world) := setupFor issuer system config world
      (result.map some, world)

end RegistryFront.Startup
