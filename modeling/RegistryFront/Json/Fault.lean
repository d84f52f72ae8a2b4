import RegistryFront.Decimal.Shortest
import RegistryFront.Text.Quoted
import RegistryFront.Text.Utf8

/-!
# What is wrong with a JSON text

A fault has a cause and, once it is known, a place in the text.  Places are counted in lines and in
bytes within the line.
-/

namespace RegistryFront.Json

inductive Found where
  | null
  | bool (value : Bool)
  | integer (value : Int)
  | float (value : Float)
  | string (value : String)
  | list
  | object

def Found.describe : Found → String
  | .null => "null"
  | .bool value => "boolean `" ++ (if value then "true" else "false") ++ "`"
  | .integer value => "integer `" ++ toString value ++ "`"
  | .float value => "floating point `" ++ Decimal.writeFloat value ++ "`"
  | .string value => "string " ++ Text.quoted value
  | .list => "sequence"
  | .object => "map"

inductive Cause where
  | endInList
  | endInObject
  | endInString
  | endInValue
  | expectedColon
  | expectedCommaOrBracket
  | expectedCommaOrBrace
  | expectedIdent
  | expectedValue
  | invalidEscape
  | invalidNumber
  | numberOutOfRange
  | controlCharacter
  | keyNotString
  | loneSurrogate
  | trailingComma
  | trailingCharacters
  | endOfHexEscape
  | wrongKind (found : Found) (expected : String)
  | wrongLength (found : Nat) (expected : String)
  | missingField (name : String)
  | duplicateField (name : String)
  | unknownVariant (found : String) (expected : List String)
  | other (text : String)

namespace Cause

def describeChoices : List String → String
  | [] => "there are no variants"
  | [a] => "expected `" ++ a ++ "`"
  | [a, b] => "expected `" ++ a ++ "` or `" ++ b ++ "`"
  | choices => "expected one of " ++ ", ".intercalate (choices.map fun c => "`" ++ c ++ "`")

def message : Cause → String
  | .endInList => "EOF while parsing a list"
  | .endInObject => "EOF while parsing an object"
  | .endInString => "EOF while parsing a string"
  | .endInValue => "EOF while parsing a value"
  | .expectedColon => "expected `:`"
  | .expectedCommaOrBracket => "expected `,` or `]`"
  | .expectedCommaOrBrace => "expected `,` or `\x7d`"
  | .expectedIdent => "expected ident"
  | .expectedValue => "expected value"
  | .invalidEscape => "invalid escape"
  | .invalidNumber => "invalid number"
  | .numberOutOfRange => "number out of range"
  | .controlCharacter => "control character (\\u0000-\\u001F) found while parsing a string"
  | .keyNotString => "key must be a string"
  | .loneSurrogate => "lone leading surrogate in hex escape"
  | .trailingComma => "trailing comma"
  | .trailingCharacters => "trailing characters"
  | .endOfHexEscape => "unexpected end of hex escape"
  | .wrongKind found expected => "invalid type: " ++ found.describe ++ ", expected " ++ expected
  | .wrongLength found expected =>
      "invalid length " ++ toString found ++ ", expected " ++ expected
  | .missingField name => "missing field `" ++ name ++ "`"
  | .duplicateField name => "duplicate field `" ++ name ++ "`"
  | .unknownVariant found expected =>
      "unknown variant `" ++ found ++ "`, " ++ describeChoices expected
  | .other text => text

end Cause

inductive Fault where
  /-- So many bytes were left after it. -/
  | placed (cause : Cause) (left : Nat)
  /-- A value that was read well and found wrong; its place is where the value around it ends. -/
  | pending (cause : Cause) (rest : List Char)

structure Error where
  cause : Cause
  line : Nat
  column : Nat

def Error.message (error : Error) : String :=
  error.cause.message ++ " at line " ++ toString error.line ++ " column " ++ toString error.column

def lineColumn (before : List UInt8) : Nat × Nat :=
  (1 + before.count 0x0A, (before.reverse.takeWhile (· ≠ 0x0A)).length)

def Fault.locate (text : List Char) (fault : Fault) : Error :=
  let (cause, left) := match fault with
    | .placed cause left => (cause, left)
    | .pending cause rest => (cause, (Text.Utf8.encodeChars rest).length)
  let bytes := Text.Utf8.encodeChars text
  let (line, column) := lineColumn (bytes.take (bytes.length - left))
  ⟨cause, line, column⟩

end RegistryFront.Json
