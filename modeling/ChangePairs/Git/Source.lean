import ChangePairs.Git.Basic
import ChangePairs.Reduction

/-!
The source of diffs and versions that git keeps.  Every file is compared with the latest commit
of its directory, which is asked for once: a commit made meanwhile does not come between the diff
of a file and its versions.  A directory without a commit is remembered as such.
-/

namespace ChangePairs

/-- The commits found so far, each under its directory. -/
abbrev CommitCache := List (Path × Option Text)

namespace CommitCache

def get? (directory : Path) : CommitCache → Option (Option Text)
  | [] => none
  | (d, commit) :: rest => if d = directory then some commit else get? directory rest

end CommitCache

namespace Git

variable {m : Type → Type} [Monad m]

def commitOf (h : Host m) (directory : Path) : StateT CommitCache m (Option Text) := do
  match CommitCache.get? directory (← get) with
  | some commit => return commit
  | none =>
    let commit ← (latestCommit h directory : m (Option Text))
    modify ((directory, commit) :: ·)
    return commit

def commitFor (h : Host m) (path : Path) : StateT CommitCache m (Option Text) :=
  commitOf h (directoryOf h path)

/-- What a query about a file and its commit answers, nothing if there is no commit. -/
def withCommit (h : Host m) (path : Path) (query : Text → m (Option Text)) :
    StateT CommitCache m (Option Text) := do
  match ← commitFor h path with
  | none => return none
  | some commit => query commit

def diff (h : Host m) (path : Path) : StateT CommitCache m (Option Text) :=
  withCommit h path fun commit => diffSince h commit path

/-- A version of a file: that of its commit, or the present one. -/
def version (h : Host m) (side : Side) (path : Path) : StateT CommitCache m (Option Text) :=
  match side with
  | .before => withCommit h path fun commit => contentAt h commit path
  | .after => (workingContent h path : m (Option Text))

/-- The source that git keeps, with the nodes that `nodes` finds. -/
def source (h : Host m) (nodes : Language → Text → m (Option (List Node))) :
    FileSource (StateT CommitCache m) :=
  { diff := fun path => return Answer.ofOption (← diff h path)
    version := fun side path => return Answer.ofOption (← version h side path)
    nodes := fun _ _ language text => nodes language text }

end Git
end ChangePairs
