import RegistryFront.Environment.Error
import RegistryFront.Text.Blank
import RegistryFront.Text.Split

/-!
# Reading the values of variables

Lists, texts, flags and ports.  White space around a value never counts, and a blank value is as good
as none.
-/

namespace RegistryFront.Environment

/-- The entries of a comma separated list, trimmed, without the empty ones; order and repeats stay. -/
def splitList (raw : String) : List String :=
  (((Text.pieces ',' raw.toList).map Text.trimChars).filter (· ≠ [])).map String.ofList

def trimmed? (raw : Option String) : Option String :=
  (raw.map Text.trim).filter (· ≠ "")

/-! ## Flags -/

def trueSpellings : List String := ["1", "t", "T", "true", "TRUE", "True"]

def falseSpellings : List String := ["0", "f", "F", "false", "FALSE", "False"]

def parseFlag (var : String) (raw : Option String) (default : Bool) : Except ConfigError Bool :=
  match trimmed? raw with
  | none => .ok default
  | some value =>
      if value ∈ trueSpellings then .ok true
      else if value ∈ falseSpellings then .ok false
      else .error (.invalidFlag var value)

/-! ## Ports -/

def digitValue? (c : Char) : Option Nat :=
  if '0' ≤ c ∧ c ≤ '9' then some (c.toNat - 48) else none

def readDigits? (limit : Nat) (value : Nat) : List Char → Option Nat
  | [] => some value
  | c :: rest =>
      match digitValue? c with
      | none => none
      | some digit =>
          let next := 10 * value + digit
          if next ≤ limit then readDigits? limit next rest else none

/-- A decimal number up to `limit`: one plus sign may stand in front, zeros may lead. -/
def readDecimal? (limit : Nat) : List Char → Option Nat
  | [] => none
  | '+' :: digits => if digits = [] then none else readDigits? limit 0 digits
  | digits => readDigits? limit 0 digits

def maxPort : Nat := 65535

def parsePort (var : String) (raw : Option String) : Except ConfigError (Option Nat) :=
  match trimmed? raw with
  | none => .ok none
  | some value =>
      match readDecimal? maxPort value.toList with
      | some (port + 1) => .ok (some (port + 1))
      | _ => .error (.invalidPort var value)

end RegistryFront.Environment
