import ChangePairs.Distinct
import ChangePairs.Shell
import ChangePairs.Text.Blank
import ChangePairs.Text.Newline

/-!
What is asked of git.  A command succeeds with what it wrote or fails with what it complained
about.  What is written is read as UTF-8, broken characters replaced, and with line feeds for all
line ends; the names of files come between null characters, so that no name needs quoting.
-/

namespace ChangePairs
namespace Git

variable {m : Type → Type} [Monad m]

def outputText (octets : Octets) : Text := Text.unifyNewlines (Octets.decode octets)

/-- What git wrote, or what it complained about.  The empty directory is the present one. -/
def run (h : Host m) (arguments : Text) (directory : Option Path) : m (Except Text Text) := do
  match ← h.run ⟨"git ".toList ++ arguments, directory.filter (!·.isEmpty)⟩ with
  | .notStarted reason => return .error reason
  | .exited code output errors =>
    if code = 0 then return .ok (outputText output)
    else return .error (Text.trim (outputText errors))

def ask (h : Host m) (words : List Text) (directory : Option Path) : m (Option Text) := do
  return (← run h (Shell.commandLine words) directory).toOption

def wordsOf (s : String) : List Text := Text.words s.toList

/-- Whether a path lies in a work tree.  A directory counts for itself, and any other path for
the directory that it names a file in. -/
def isInWorkTree (h : Host m) (path : Path) : m Bool := do
  let absolute (p : Path) := Path.absolute h.present p
  let directory :=
    if ← h.files.isDirectory (absolute path) then path else Path.directory (absolute path)
  if ← h.files.isDirectory (absolute directory) then
    let answer ← ask h (wordsOf "rev-parse --is-inside-work-tree") (some directory)
    return answer.any fun t => Text.trim t = "true".toList
  else return false

def root (h : Host m) (directory : Option Path) : m (Option Path) := do
  return (← ask h (wordsOf "rev-parse --show-toplevel") directory).map Text.trim

def listing (h : Host m) (root : Path) (staged : Bool) : m (Option (List Text)) := do
  let answer ← ask h
    (wordsOf "-c core.quotePath=false diff --name-only -z" ++
      (if staged then ["--cached".toList] else []) ++ ["--diff-filter=d".toList]) (some root)
  return answer.map fun t => (Text.fields '\x00' t).filter (!·.isEmpty)

/-- The paths of all changed files, those not staged first and each path once, or `none` if git
fails.  Deleted files are left out. -/
def modifiedFiles (h : Host m) (directory : Option Path) : m (Option (List Path)) := do
  match ← root h directory with
  | none => return none
  | some r =>
    match ← listing h r false with
    | none => return none
    | some unstaged =>
      match ← listing h r true with
      | none => return none
      | some staged => return some (distinct ((unstaged ++ staged).map (Path.join r)))

def latestCommit (h : Host m) (directory : Path) : m (Option Text) := do
  match ← ask h (wordsOf "rev-parse HEAD") (some directory) with
  | none => return none
  | some t =>
    let hash := Text.trim t
    return if hash.isEmpty then none else some hash

def directoryOf (h : Host m) (path : Path) : Path := Path.directory (Path.absolute h.present path)

def diffSince (h : Host m) (commit : Text) (path : Path) : m (Option Text) :=
  ask h (wordsOf "diff --no-color --no-ext-diff" ++ [commit, "--".toList, Path.baseName path])
    (some (directoryOf h path))

def contentAt (h : Host m) (commit : Text) (path : Path) : m (Option Text) :=
  ask h ["show".toList, commit ++ ":./".toList ++ Path.baseName path] (some (directoryOf h path))

def workingContent (h : Host m) (path : Path) : m (Option Text) := do
  return (← h.files.read (Path.absolute h.present path)).map outputText

end Git
end ChangePairs
