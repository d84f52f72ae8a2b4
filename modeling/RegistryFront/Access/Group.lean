import RegistryFront.Access.Level
import RegistryFront.Text.Quoted
import RegistryFront.Text.Split

/-!
# Capabilities granted by group names

A group named `<namespace>_<token>` grants the token's level in the namespace.  The cut is at the last
underscore, so a namespace may hold underscores itself.  Group names come from outside and are not
trusted: a name that does not follow the form grants nothing.
-/

namespace RegistryFront.Access

structure Capability where
  space : String
  pullOnly : Bool
  deleteAllowed : Bool
  deriving DecidableEq, Repr

inductive GroupError where
  | missingSeparator (group : String)
  | unknownToken (group token : String)
  | emptyNamespace (group : String)
  deriving DecidableEq, Repr

def GroupError.message : GroupError → String
  | .missingSeparator group =>
      "group " ++ Text.quoted group ++ " has no '_' separated access suffix"
  | .unknownToken group token =>
      "group " ++ Text.quoted group ++ " has unrecognized access suffix " ++ Text.quoted token
  | .emptyNamespace group => "group " ++ Text.quoted group ++ " has an empty namespace"

def groupSeparator : Char := '_'

namespace Capability

def ofLevel (space : String) (level : Level) : Capability where
  space := space
  pullOnly := level.pullOnly
  deleteAllowed := level.deleteAllowed

def level (capability : Capability) : Level :=
  .ofFlags capability.pullOnly capability.deleteAllowed

def groupName (capability : Capability) : String :=
  capability.space.push groupSeparator ++ capability.level.token

/-- An unknown token is reported before an empty namespace. -/
def ofGroup (group : String) : Except GroupError Capability :=
  match Text.splitLast? groupSeparator group.toList with
  | none => .error (.missingSeparator group)
  | some (space, token) =>
      match Level.ofToken? (String.ofList token) with
      | none => .error (.unknownToken group (String.ofList token))
      | some level =>
          if space = [] then .error (.emptyNamespace group)
          else .ok (ofLevel (String.ofList space) level)

@[simp] theorem level_ofLevel (space : String) (level : Level) :
    (ofLevel space level).level = level := by
  simp [ofLevel, Capability.level]

@[simp] theorem ofLevel_level (capability : Capability) :
    ofLevel capability.space capability.level = capability := by
  obtain ⟨space, pullOnly, deleteAllowed⟩ := capability
  cases pullOnly <;> cases deleteAllowed <;> rfl

end Capability

def resolveGroup? (group : String) : Option Capability :=
  (Capability.ofGroup group).toOption

def resolveGroups (groups : List String) : List Capability :=
  groups.filterMap resolveGroup?

end RegistryFront.Access
