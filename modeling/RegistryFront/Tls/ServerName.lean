import RegistryFront.Net.Address

/-!
# Names of servers

A client asks for a server by a domain name or an address.  Labels of a name have at most 63 letters,
digits, underscores and inner hyphens; the last label does not consist of digits only.  A dot may end
the name, it is not sent.
-/

namespace RegistryFront.Tls

inductive ServerName where
  | domain (name : String)
  | address (address : Net.IpAddress)
  deriving DecidableEq, Repr

namespace ServerName

def isWord (c : Char) : Bool := c.isAlphanum || c == '_'

def isLabel (label : List Char) : Bool :=
  label.length ≤ 63 && label.all (fun c => isWord c || c == '-') &&
    label.head?.any isWord && label.getLast?.any isWord

/-- The labels of a name, without the empty one behind a dot at the end. -/
def labels (name : String) : List (List Char) :=
  let pieces := name.toList.splitOn '.'
  if pieces.getLast? = some [] then pieces.dropLast else pieces

def isDomain (name : String) : Bool :=
  let labels := labels name
  name.length ≤ 253 && !labels.isEmpty && labels.all isLabel &&
    labels.getLast?.any (fun label => !label.all Char.isDigit)

def ofText? (text : String) : Option ServerName :=
  if isDomain text then some (.domain text) else (Net.IpAddress.ofText? text).map .address

/-- The name as it is sent; addresses are not. -/
def sent? : ServerName → Option String
  | .domain name => some (String.ofList (List.intercalate ['.'] (labels name)))
  | .address _ => none

end ServerName

end RegistryFront.Tls
