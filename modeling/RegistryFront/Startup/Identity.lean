import RegistryFront.Startup.Provider
import RegistryFront.StaticPair.Load

/-!
# The identity of the server

The authority comes first.  Only when it is not to be asked does the server fall back to the pair in
files, which is made if need be.  Any error on the first way ends the start.
-/

namespace RegistryFront.Startup

open Files (Drive)
open X509 (Anchor)

inductive ServerIdentity where
  | acme (setup : Tls.ServerSetup)
  | selfSigned (setup : Tls.ServerSetup) (outcome : StaticPair.Outcome)
  deriving DecidableEq

namespace ServerIdentity

def setup : ServerIdentity → Tls.ServerSetup
  | .acme setup => setup
  | .selfSigned setup _ => setup

def isAcme : ServerIdentity → Bool
  | .acme _ => true
  | .selfSigned .. => false

def outcome? : ServerIdentity → Option StaticPair.Outcome
  | .acme _ => none
  | .selfSigned _ outcome => some outcome

def source : ServerIdentity → String
  | .acme _ => "acme"
  | .selfSigned .. => "self-signed"

def describe (identity : ServerIdentity) : String :=
  let outcome := match identity.outcome? with
    | some outcome => ", outcome: " ++ outcome.name
    | none => ""
  "ServerIdentity \x7b source: " ++ Text.quoted identity.source ++ outcome ++ " \x7d"

end ServerIdentity

structure Surroundings where
  now : Time.Instant
  entropy : Keys.Entropy
  systemRoots : List Anchor

variable {σ : Type}

def staticIdentity (around : Surroundings) (location : StaticPair.Location) (drive : Drive) :
    Except StaticPair.Error ServerIdentity × Drive :=
  match StaticPair.ensure location around.now around.entropy drive with
  | (.error cause, drive) => (.error cause, drive)
  | (.ok outcome, drive) =>
      ((StaticPair.load location drive.disk).map fun setup => .selfSigned setup outcome, drive)

def prepareFrom (issuer : Issuer σ) (around : Surroundings)
    (config : Except Environment.ConfigError (Option Acme.Config)) (location : StaticPair.Location)
    (world : World σ) : Except StartupError ServerIdentity × World σ :=
  match setupFrom issuer around.systemRoots config world with
  | (.error cause, world) => (.error (.acme cause), world)
  | (.ok (some setup), world) => (.ok (.acme setup), world)
  | (.ok none, world) =>
      let (result, drive) := staticIdentity around location world.drive
      (result.mapError .static, { world with drive := drive })

def prepare (issuer : Issuer σ) (around : Surroundings) (vars : List Environment.Variable)
    (location : StaticPair.Location) (world : World σ) :
    Except StartupError ServerIdentity × World σ :=
  prepareFrom issuer around (Acme.Config.ofVariables vars) location world

def prepareFromEnvironment (issuer : Issuer σ) (around : Surroundings)
    (environment : List (List UInt8 × List UInt8)) (location : StaticPair.Location)
    (world : World σ) : Except StartupError ServerIdentity × World σ :=
  prepareFrom issuer around (Acme.Config.ofEnvironment environment) location world

end RegistryFront.Startup
