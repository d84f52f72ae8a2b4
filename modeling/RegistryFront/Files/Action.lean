import RegistryFront.Files.Disk

/-!
# Changes to the disk, one step at a time

A change is a list of actions.  Each may be struck by a mishap from outside: it is refused and nothing
happens, or a write is cut off after the file was emptied.  The first action that fails ends the
change; what was done before it stays.
-/

namespace RegistryFront.Files

inductive Action where
  | makeDirectories (path : String) (mode : Nat)
  | write (path : String) (mode : Nat) (content : Bytes)
  | setMode (path : String) (mode : Nat)
  deriving DecidableEq, Repr

inductive Mishap where
  | refused (cause : FileError)
  | emptied (cause : FileError)
  deriving DecidableEq, Repr

/-- A disk and what is going to befall the next actions on it. -/
structure Drive where
  disk : Disk
  mishaps : List (Option Mishap)
  deriving DecidableEq, Repr

def keeping (disk : Disk) : Except FileError Disk → Except FileError Unit × Disk
  | .ok after => (.ok (), after)
  | .error cause => (.error cause, disk)

def Action.apply (disk : Disk) : Action → Except FileError Unit × Disk
  | .makeDirectories path mode => disk.makeDirectories path mode
  | .write path mode content => keeping disk (disk.write path mode content)
  | .setMode path mode => keeping disk (disk.setMode path mode)

def Action.applyStruck (disk : Disk) (action : Action) : Option Mishap → Except FileError Unit × Disk
  | none => action.apply disk
  | some (.refused cause) => (.error cause, disk)
  | some (.emptied cause) =>
      match action with
      | .write path mode _ => (.error cause, (keeping disk (disk.write path mode [])).2)
      | _ => (.error cause, disk)

namespace Drive

def ofDisk (disk : Disk) : Drive := ⟨disk, []⟩

def perform (drive : Drive) (action : Action) : Except FileError Unit × Drive :=
  let (result, disk) := action.applyStruck drive.disk (drive.mishaps.head?.getD none)
  (result, ⟨disk, drive.mishaps.tail⟩)

def performAll (drive : Drive) : List Action → Except FileError Unit × Drive
  | [] => (.ok (), drive)
  | action :: rest =>
      match drive.perform action with
      | (.ok (), drive) => drive.performAll rest
      | (.error cause, drive) => (.error cause, drive)

end Drive

/-! ## What has changed

The actions that make one disk out of another, for nodes that are new or different.  Nodes are never
taken away by what is done here, so that nothing has to be said about missing ones.
-/

def pathOfPlace (place : Place) : String := "/" ++ "/".intercalate place

def changesAt (path : String) : Option Node → Node → List Action
  | some (.file old content), .file mode new =>
      (if content = new then [] else [.write path mode new]) ++
        (if old = mode then [] else [.setMode path mode])
  | _, .file mode new => [.write path mode new, .setMode path mode]
  | some (.directory old), .directory mode => if old = mode then [] else [.setMode path mode]
  | _, .directory mode => [.makeDirectories path mode, .setMode path mode]
  | _, .link _ => []

/-- Directories come before what they hold, as they do on the disk. -/
def Disk.changesSince (after before : Disk) : List Action :=
  after.entries.flatMap fun (place, node) =>
    changesAt (pathOfPlace place) (before.entries.lookup place) node

end RegistryFront.Files
