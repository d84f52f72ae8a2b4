import RegistryFront.Files.Errno
import RegistryFront.Files.Path
import RegistryFront.Text.Utf8

/-!
# Files

A disk holds files, directories and links by their places, a place being the names on the way from the
root.  Paths are walked from the working directory; links on the way are followed, the last one too
where the operation asks for it.  New files and directories lose the group's and the others' write
permission.  Permissions are kept and shown; they keep nobody out.
-/

namespace RegistryFront.Files

/-- The names from the root on, outermost first. -/
abbrev Place := List String

inductive Node where
  | file (mode : Nat) (content : Bytes)
  | directory (mode : Nat)
  | link (target : String)
  deriving DecidableEq, Repr

namespace Node

def kind : Node → String
  | .file .. => "file"
  | .directory _ => "dir"
  | .link _ => "link"

def mode : Node → Nat
  | .file mode _ | .directory mode => mode
  | .link _ => 0o777

end Node

structure Disk where
  entries : List (Place × Node)
  base : Place
  deriving DecidableEq, Repr

namespace Disk

def empty : Disk where
  entries := [(["work"], .directory 0o755)]
  base := ["work"]

/-- The root is always a directory. -/
def node? (disk : Disk) : Place → Option Node
  | [] => some (.directory 0o755)
  | place => disk.entries.lookup place

def put (disk : Disk) (place : Place) (node : Node) : Disk :=
  if disk.entries.any (·.1 == place) then
    { disk with
      entries := disk.entries.map fun entry => if entry.1 == place then (place, node) else entry }
  else { disk with entries := disk.entries ++ [(place, node)] }

def erase (disk : Disk) (place : Place) : Disk :=
  { disk with entries := disk.entries.filter fun entry => !place.isPrefixOf entry.1 }

/-! ## Walking a path -/

def maxName : Nat := 255

def maxPath : Nat := 4095

def maxLinks : Nat := 40

/-- The place the names lead to from `here`, a directory.  Everything but the last name has to exist;
what the last one names need not.  `links` bounds how many links may be followed. -/
def walk (disk : Disk) (followLast : Bool) (links : Nat) (here : Place) (names : List String) :
    Except Errno Place :=
  match names with
  | [] => .ok here
  | name :: rest =>
      if name = "." then walk disk followLast links here rest
      else if name = ".." then walk disk followLast links here.dropLast rest
      else if Text.Utf8.size name > maxName then .error .nameTooLong
      else
        let place := here ++ [name]
        match disk.node? place with
        | none => if rest = [] then .ok place else .error .noEntry
        | some (.file ..) => if rest = [] then .ok place else .error .notDirectory
        | some (.directory _) => walk disk followLast links place rest
        | some (.link target) =>
            if rest = [] && !followLast then .ok place
            else
              match links with
              | 0 => .error .tooManyLinks
              | links + 1 =>
                  walk disk followLast links (if Path.isAbsolute target then [] else here)
                    (Path.parts target ++ rest)
termination_by (links, names.length)

def locate (disk : Disk) (followLast : Bool) (path : String) : Except FileError Place :=
  if path.toList.any (·.toNat == 0) then .error .nulInPath
  else if path = "" then .error (.os .noEntry)
  else if Text.Utf8.size path > maxPath then .error (.os .nameTooLong)
  else
    let start := if Path.isAbsolute path then [] else disk.base
    match walk disk followLast maxLinks start (Path.parts path) with
    | .error errno => .error (.os errno)
    | .ok place => .ok place

/-- The node a path leads to.  A path that ends in a separator has to lead to a directory. -/
def find (disk : Disk) (path : String) : Except FileError (Place × Node) := do
  let place ← disk.locate true path
  match disk.node? place with
  | none => .error (.os .noEntry)
  | some (.file mode content) =>
      if Path.endsInSlash path then .error (.os .notDirectory)
      else .ok (place, .file mode content)
  | some node => .ok (place, node)

/-! ## Reading -/

/-- A lookup fails by the form of the path and by what is on the way, not by permissions: nobody is
kept from looking. -/
def pathExists (disk : Disk) (path : String) : Bool :=
  (disk.find path).isOk

def isDirectory (disk : Disk) (path : String) : Bool :=
  match disk.find path with
  | .ok (_, .directory _) => true
  | _ => false

/-- A file that is found can be read, whatever its permissions. -/
def read (disk : Disk) (path : String) : Except FileError Bytes := do
  match ← disk.find path with
  | (_, .file _ content) => .ok content
  | _ => .error (.os .isDirectory)

def readText (disk : Disk) (path : String) : Except FileError String := do
  match Text.Utf8.decode? (← disk.read path) with
  | some text => .ok text
  | none => .error .notText

/-! ## Writing -/

/-- Writes a whole file.  A file that is there keeps its mode, a new one gets `mode`. -/
def write (disk : Disk) (path : String) (mode : Nat) (content : Bytes) : Except FileError Disk := do
  let place ← disk.locate true path
  match disk.node? place with
  | some (.directory _) => .error (.os .isDirectory)
  | some (.file old _) =>
      if Path.endsInSlash path then .error (.os .notDirectory)
      else .ok (disk.put place (.file old content))
  | _ =>
      if Path.endsInSlash path then .error (.os .isDirectory)
      else .ok (disk.put place (.file mode content))

def setMode (disk : Disk) (path : String) (mode : Nat) : Except FileError Disk := do
  match ← disk.find path with
  | (place, .file _ content) => .ok (disk.put place (.file mode content))
  | (place, .directory _) => .ok (disk.put place (.directory mode))
  | (_, .link _) => .ok disk

def makeDirectory (disk : Disk) (path : String) (mode : Nat) : Except FileError Disk := do
  let place ← disk.locate false path
  match disk.node? place with
  | some _ => .error (.os .alreadyExists)
  | none => .ok (disk.put place (.directory mode))

/-- Makes the directory of the first path and first, where they are missing, those of the others,
which are its parents from the inside out.  What was made stays when a later one fails. -/
def makeDirectoriesOf (disk : Disk) (mode : Nat) : List String → Except FileError Unit × Disk
  | [] => (.ok (), disk)
  | path :: parents =>
      match disk.makeDirectory path mode with
      | .ok disk => (.ok (), disk)
      | .error (.os errno) =>
          if errno = .noEntry then
            match disk.makeDirectoriesOf mode parents with
            | (.error cause, disk) => (.error cause, disk)
            | (.ok (), disk) =>
                match disk.makeDirectory path mode with
                | .ok disk => (.ok (), disk)
                | .error cause =>
                    if disk.isDirectory path then (.ok (), disk) else (.error cause, disk)
          else if disk.isDirectory path then (.ok (), disk)
          else (.error (.os errno), disk)
      | .error cause => (.error cause, disk)

def withParents (path : String) : List String :=
  let start := if Path.isAbsolute path then "/" else ""
  let names := (Path.parts path).filter (· ≠ ".")
  (List.range names.length).map fun up =>
    start ++ "/".intercalate (names.take (names.length - up))

def makeDirectories (disk : Disk) (path : String) (mode : Nat) : Except FileError Unit × Disk :=
  disk.makeDirectoriesOf mode (withParents path)

def link (disk : Disk) (target path : String) : Except FileError Disk := do
  let place ← disk.locate false path
  match disk.node? place with
  | some _ => .error (.os .alreadyExists)
  | none => .ok (disk.put place (.link target))

def remove (disk : Disk) (path : String) : Except FileError Disk := do
  let place ← disk.locate false path
  match disk.node? place with
  | none => .error (.os .noEntry)
  | some _ => .ok (disk.erase place)

/-! ## Listing -/

def placeKey (place : Place) : List Nat :=
  place.flatMap fun name => name.toList.map (fun c => c.toNat + 1) ++ [0]

def inOrder : List Nat → List Nat → Bool
  | [], _ => true
  | _ :: _, [] => false
  | a :: rest, b :: others => if a = b then inOrder rest others else decide (a < b)

def listing (disk : Disk) : List (Place × Node) :=
  let below := disk.entries.filterMap fun (place, node) =>
    if disk.base.isPrefixOf place && place ≠ disk.base then
      some (place.drop disk.base.length, node)
    else none
  below.mergeSort fun a b => inOrder (placeKey a.1) (placeKey b.1)

end Disk

end RegistryFront.Files
