import RegistryFront.Text.Split

/-!
# Paths

A path is kept as it was written.  `join` puts a name under it, `parent?` is what is left without its
last part, and `parts` are the names on the way, from the outside in.
-/

namespace RegistryFront.Files.Path

def isAbsolute (path : String) : Bool := path.toList.head? == some '/'

def endsInSlash (path : String) : Bool := path.toList.getLast? == some '/'

/-- An absolute name takes the place of the whole path. -/
def join (path name : String) : String :=
  if isAbsolute name then name
  else if path == "" || endsInSlash path then path ++ name
  else path ++ "/" ++ name

def parts (path : String) : List String :=
  ((Text.pieces '/' path.toList).filter (· ≠ [])).map String.ofList

/-! ## The parent of a path -/

def skipTrivial : List Char → List Char
  | '/' :: rest => skipTrivial rest
  | '.' :: '/' :: rest => skipTrivial rest
  | text => text

def trimEnd (path : List Char) : List Char :=
  let trimmed := (skipTrivial path.reverse).reverse
  if trimmed = [] && path.head? == some '/' then ['/'] else trimmed

def parent? (path : String) : Option String :=
  let trimmed := trimEnd path.toList
  if trimmed = [] || trimmed = ['/'] then none
  else some (String.ofList (trimEnd (trimmed.reverse.dropWhile (· ≠ '/')).reverse))

end RegistryFront.Files.Path
