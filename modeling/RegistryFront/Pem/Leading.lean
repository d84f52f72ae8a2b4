import RegistryFront.Base64
import RegistryFront.Text.Blank
import RegistryFront.Text.Utf8

/-!
# The first section of a PEM text

A loose reader, which takes the first section whatever its label: it starts at the first line that
begins with `-----BEGIN ` and ends at the next one that begins with `-----END `.  Lines end with a line
feed; white space at the end of a line of the body does not count.
-/

namespace RegistryFront.Pem

inductive LeadingFault where
  | missingHeader
  | invalidHeader
  | incomplete
  | badBase64
  deriving DecidableEq, Repr

def LeadingFault.name : LeadingFault → String
  | .missingHeader => "MissingHeader"
  | .invalidHeader => "InvalidHeader"
  | .incomplete => "IncompletePEM"
  | .badBase64 => "Base64DecodeError"

namespace Leading

def beginMark : List Char := "-----BEGIN ".toList

def endMark : List Char := "-----END ".toList

def dashes : List Char := "-----".toList

/-- The lines with their line feeds; nothing follows the last one. -/
def lines : List Char → List (List Char)
  | [] => []
  | c :: rest =>
      if c = '\n' then [c] :: lines rest
      else
        match lines rest with
        | [] => [[c]]
        | line :: others => (c :: line) :: others

def contains (part : List Char) : List Char → Bool
  | [] => part.isEmpty
  | c :: rest => part.isPrefixOf (c :: rest) || contains part rest

def afterHeader : List (List Char) → Except LeadingFault (List (List Char))
  | [] => .error .missingHeader
  | line :: rest =>
      if beginMark.isPrefixOf line then
        if contains dashes (line.drop dashes.length) then .ok rest else .error .invalidHeader
      else afterHeader rest

def bodyOf : List (List Char) → Except LeadingFault (List Char)
  | [] => .error .incomplete
  | line :: rest =>
      if endMark.isPrefixOf line then .ok []
      else (bodyOf rest).map (Text.dropWhileEnd Text.isBlank line ++ ·)

/-- Base64 in its only right form: filled up, and without anything else. -/
def decode (body : List Char) : Except LeadingFault (List UInt8) :=
  let text := Text.Utf8.encodeChars body
  match Base64.decode? text with
  | some bytes => if Base64.encode bytes = text then .ok bytes else .error .badBase64
  | none => .error .badBase64

end Leading

def leading (text : String) : Except LeadingFault (List UInt8) := do
  let behind ← Leading.afterHeader (Leading.lines text.toList)
  Leading.decode (← Leading.bodyOf behind)

end RegistryFront.Pem
