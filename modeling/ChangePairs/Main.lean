import ChangePairs.CommandLine.Run
import ChangePairs.Git.Workspace
import ChangePairs.Yaml.Document

/-!
The program itself.  This layer reads and writes for the library and decides nothing.  It has no
way to start another program or to reach the network, so git counts as not installed, the service
as unreachable, and no browser opens.
-/

namespace ChangePairs
namespace Program

/-- The monad of the program: commits are asked for once in each directory. -/
abbrev Run := StateT CommitCache IO

def string (t : Text) : String := String.ofList t

/-- The octets of a file, or `none` if it cannot be read. -/
def readOctets? (p : Path) : IO (Option Octets) := do
  try
    let bytes ← IO.FS.readBinFile (string p)
    return some (bytes.toList.map UInt8.toNat)
  catch _ => return none

partial def partsFrom (handle : IO.FS.Handle) : IO (List Octets) := do
  let bytes ← handle.read 8192
  if bytes.isEmpty then return []
  return bytes.toList.map UInt8.toNat :: (← partsFrom handle)

/-- The octets of a file in the parts in which it is read, or `none` if it cannot be. -/
def readParts? (p : Path) : IO (Option (List Octets)) := do
  try return some (← partsFrom (← IO.FS.Handle.mk (string p) .read))
  catch _ => return none

def isDirectory (p : Path) : IO Bool := do
  ((← IO.currentDir) / string p).isDir

def files {m : Type → Type} [MonadLiftT IO m] : FileSystem m :=
  { isFile := fun p => (do return (← readOctets? p).isSome : IO Bool)
    isDirectory := fun p => (isDirectory p : IO Bool)
    read := fun p => (readOctets? p : IO (Option Octets))
    readParts := fun p => (readParts? p : IO (Option (List Octets))) }

def host (present : Path) : Host IO :=
  { present
    files
    run := fun _ => return .notStarted "No other program can be started".toList }

def service : Service Run :=
  { post := fun _ => return .unreachable "The network is not available".toList
    pause := fun _ => return ()
    spread := return 0.0 }

def print (t : Text) : IO Unit := do
  let out ← IO.getStdout
  out.putStr (string t)
  out.flush

partial def askUser (paths : List Path) : IO (Option (List Path)) := do
  print Selection.question
  let answer ← (← IO.getStdin).getLine
  if answer.isEmpty then return none
  match Selection.choose paths answer.toList with
  | .ok picked => return some picked
  | .error refusal =>
    print (Console.line refusal.message)
    askUser paths

def terminal : CommandLine.Terminal Run :=
  { print := fun t => (print t : IO Unit)
    interactive := (do (← IO.getStdin).isTty : IO Bool)
    pick := fun paths => (do print (Selection.menu paths); askUser paths : IO (Option (List Path)))
    browse := fun _ => return false
    log := fun _ => return () }

def environment : IO Environment := do
  let values ← Setting.all.mapM fun s => do
    return (s.environmentName, (← IO.getEnv (string s.environmentName)).map String.toList)
  return fun name => (values.find? fun entry => entry.1 = name).bind Prod.snd

def machine : IO (CommandLine.Machine Run Yaml.BadValue) := do
  let present := (← IO.currentDir).toString.toList
  let home := ((← IO.getEnv "HOME").getD "/").toList
  return {
    files
    yaml := Yaml.reader
    directories := ⟨present, home⟩
    environment := ← environment
    workspace := Git.workspace (host present) fun _ _ => return none
    service
    terminal }

def complain (t : Text) : IO Unit := do (← IO.getStderr).putStrLn (string t)

end Program
end ChangePairs

open ChangePairs in
def main (arguments : List String) : IO UInt32 := do
  let (result, _) ←
    (CommandLine.run (← Program.machine) (arguments.map String.toList)).run []
  match result with
  | .ok (.code n) => return n.toUInt32
  | .ok (.usage e) =>
    Program.complain e.line
    return 2
  | .error stop =>
    Program.complain (stop.message Yaml.BadValue.message)
    return 1
