import RegistryFront.Acme.Issuer
import RegistryFront.Acme.Script
import RegistryFront.Command.Paths
import RegistryFront.Command.Perform
import Std.Time.DateTime.Timestamp

/-!
# The program

Reads what the task needs, has it done, and carries out what was decided.  There is no transport here:
a certificate that would have to be issued cannot be reached.
-/

namespace RegistryFront.Main

open Files (Action Disk Node Place)

/-! ## Surroundings -/

def environment : IO (List (List UInt8 × List UInt8)) := do
  let bytes ← IO.FS.readBinFile "/proc/self/environ"
  let entries := bytes.toList.splitOn 0
  pure (entries.filterMap fun entry =>
    if entry.contains 61 then
      some (entry.takeWhile (· ≠ 61), (entry.dropWhile (· ≠ 61)).drop 1)
    else none)

def now : IO Time.Instant := do
  let timestamp ← Std.Time.Timestamp.now
  let nanos := timestamp.toNanosecondsSinceUnixEpoch.val
  pure ((Time.Instant.ofUnix? (nanos / 1000000000) (nanos % 1000000000).toNat).getD .epoch)

def entropy : IO Keys.Entropy := do
  pure (.ofSeed (← IO.getRandomBytes 32).toList)

/-! ## Files -/

/-- What is at a path; permissions are not looked at. -/
def nodeAt (path : String) : IO (Option Node) := do
  try
    pure (some (.file 0 (← IO.FS.readBinFile path).toList))
  catch
    | .noFileOrDirectory .. => pure none
    | .inappropriateType _ code _ => pure (if code = 21 then some (.directory 0) else none)
    | cause => throw cause

def snapshot (paths : List String) : IO Disk := do
  let base := Files.Path.parts (← IO.currentDir).toString
  let start : Disk := ⟨[(base, .directory 0)], base⟩
  let inner := paths.flatMap fun path => (Disk.withParents path).reverse
  inner.foldlM (fun disk path => do
    match disk.locate true path, ← nodeAt path with
    | .ok place, some node => pure (disk.put place node)
    | _, _ => pure disk) start

def rightsOf (mode : Nat) : IO.FileRight :=
  let three (n : Nat) : IO.AccessRight := ⟨n / 4 % 2 = 1, n / 2 % 2 = 1, n % 2 = 1⟩
  ⟨three (mode / 64 % 8), three (mode / 8 % 8), three (mode % 8)⟩

def carryOut : Action → IO Unit
  | .makeDirectories path _ => IO.FS.createDirAll path
  | .write path _ content => IO.FS.writeBinFile path ⟨content.toArray⟩
  | .setMode path mode => IO.setAccessRights path (rightsOf mode)

/-! ## Tasks -/

def rootsPath (environment : List (List UInt8 × List UInt8)) : String :=
  (Environment.text? environment "SSL_CERT_FILE").getD "/etc/ssl/certs/ca-certificates.crt"

def pathsOf (environment : List (List UInt8 × List UInt8)) :
    Except Command.UsageError Command.Request → List String
  | .ok (.task task) =>
      let config := (Acme.Config.ofEnvironment environment).toOption.bind id
      rootsPath environment :: task.paths (.ofEnvironment environment) config
  | _ => []

def once (environment : List (List UInt8 × List UInt8))
    (request : Except Command.UsageError Command.Request) : IO (Command.Output × Bool) := do
  let before ← snapshot (pathsOf environment request)
  let now ← now
  let roots := Trust.systemRoots (Trust.systemCertificates before (some (rootsPath environment)))
  let issuing : Acme.Issuing (Acme.Line Acme.Script) :=
    ⟨Acme.Script.transport.outside, .ofEnvironment environment,
      Acme.Client.defaultRenewBeforeDays⟩
  let context : Acme.Context (Acme.Line Acme.Script) :=
    ⟨.fresh (.unplugged now) now, 0, now, ← entropy, []⟩
  let process := ⟨environment, ⟨now, ← entropy, roots⟩, issuing.issuer⟩
  let (output, identity, world) := Command.answer process ⟨.ofDisk before, context⟩ request
  (world.drive.disk.changesSince before).forM carryOut
  pure (output, identity.any (·.isAcme))

def isWatched : Except Command.UsageError Command.Request → Bool
  | .ok (.task (.identity _ watch)) => watch
  | _ => false

/-- An identity that is watched is prepared anew every half a day. -/
def run (arguments : List String) : IO UInt32 := do
  let environment ← environment
  let request := Command.read (.ofEnvironment environment) arguments
  let (output, renewed) ← once environment request
  IO.print output.out
  IO.eprint output.err
  if isWatched request && renewed then
    repeat
      IO.sleep (UInt32.ofNat (Acme.Period.standard.nanos / 1000000))
      let _ ← once environment request
  pure (UInt32.ofNat output.code)

end RegistryFront.Main

def main (arguments : List String) : IO UInt32 := RegistryFront.Main.run arguments
