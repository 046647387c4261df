import ChangePairs.Reduction
import ChangePairs.Settings.Basic

/-!
Choosing the files to learn from: those that are named or else all that have changed, and of
these the ones with an extension that is learned from.  A file that is named must lie in a
repository.
-/

namespace ChangePairs

structure Workspace (m : Type → Type) where
  /-- The present directory, where relative paths start. -/
  present : Path
  /-- The files with changes, or `none` if they cannot be listed. -/
  modified : m (Option (List Path))
  /-- Whether a file lies in a repository. -/
  tracks : Path → m Bool
  source : FileSource m

inductive TargetError where
  | outside (paths : List Path)
  | notListed
  | unsupported (extensions : List Text)
  | unchanged
deriving DecidableEq, Repr

def TargetError.message : TargetError → Text
  | .outside paths => "Not in a git repository: ".toList ++ Text.join ", ".toList paths
  | .notListed => "Could not list modified files. Is this a git repository?".toList
  | .unsupported extensions =>
    "No modified file has a supported extension (".toList ++ Text.join ", ".toList extensions ++
      [')']
  | .unchanged => "Could not find any modified file to learn from.".toList

namespace Session

variable {m : Type → Type} [Monad m]

def candidates (w : Workspace m) (targets : List Path) : m (Except TargetError (List Path)) := do
  if targets.isEmpty then
    match ← w.modified with
    | none => return .error .notListed
    | some paths => return .ok paths
  else
    let paths := targets.map (Path.absolute w.present)
    let tracked ← paths.mapM w.tracks
    match (paths.zip tracked).filter fun (_, inside) => !inside with
    | [] => return .ok paths
    | outside => return .error (.outside (outside.map Prod.fst))

/-- The files with an extension that is learned from.  There has to be one. -/
def accepted (s : Settings) (paths : List Path) : Except TargetError (List Path) :=
  match paths.filter s.accepts with
  | [] => if paths.isEmpty then .error .unchanged else .error (.unsupported s.extensions)
  | found => .ok found

def resolve (w : Workspace m) (s : Settings) (targets : List Path) :
    m (Except TargetError (List Path)) := do
  return (← candidates w targets).bind (accepted s)

end Session
end ChangePairs
