import RegistryFront.Environment.Error
import RegistryFront.Text.Utf8

/-!
# Variables of the process environment

The environment is a list of byte strings.  Only variables of ours are ever decoded, so that garbage
elsewhere in it does no harm.
-/

namespace RegistryFront.Environment

abbrev Variable := String × String

def startingWith (start : String) : List (Bytes × Bytes) → Except ConfigError (List Variable)
  | [] => .ok []
  | (name, value) :: rest =>
      match (Text.Utf8.decode? name).filter (fun name => start.toList.isPrefixOf name.toList) with
      | none => startingWith start rest
      | some name =>
          match Text.Utf8.decode? value with
          | none => .error (.notText name)
          | some value => (startingWith start rest).map ((name, value) :: ·)

def text? (environment : List (Bytes × Bytes)) (name : String) : Option String :=
  (environment.lookup (Text.Utf8.encode name)).map Text.Utf8.decodeLossy

end RegistryFront.Environment
