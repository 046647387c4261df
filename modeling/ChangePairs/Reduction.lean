import ChangePairs.Correlation
import ChangePairs.Snapshot
import ChangePairs.Statement.Language

/-!
Reducing the change of a file to snippet pairs.  A source gives the diff of a file, its two
versions and the nodes that the parser of its language finds in them, and may fail at each of
these.  Every such failure ends in a diagnostic of the file; only a number that is too long to be
read or written is passed on.

The source works in any monad: in `Id` for a source that is given, in a state monad for one that
asks a version control system.
-/

namespace ChangePairs

inductive Answer where
  | text (t : Text)
  | unavailable
  | failed (reason : Text)
deriving DecidableEq, Repr

def Answer.ofOption : Option Text → Answer
  | some t => .text t
  | none => .unavailable

structure FileSource (m : Type → Type) where
  diff : Path → m Answer
  version : Side → Path → m Answer
  /-- The top-level nodes of a version, or `none` if no parser can be had or it fails. -/
  nodes : Side → Path → Language → Text → m (Option (List Node))

inductive Strategy where
  /-- One pair for each hunk. -/
  | hunks
  /-- At most one pair, of whole statements. -/
  | statements
deriving DecidableEq, Repr

namespace Strategy

def name : Strategy → Text
  | .hunks => "hunks".toList
  | .statements => "statements".toList

def all : List Strategy := [.hunks, .statements]

def ofName? (t : Text) : Option Strategy := all.find? fun s => s.name = t

end Strategy

/-- A name that stands for no strategy or no way of matching. -/
inductive PlanError where
  | unknownStrategy (name : Text)
  | unknownMatching (name : Text)
deriving DecidableEq, Repr

def PlanError.message : PlanError → Text
  | .unknownStrategy name =>
    "Unknown strategy ".toList ++ Text.quoted name ++ ", expected one of ".toList ++
      Text.join ", ".toList (Strategy.all.map Strategy.name)
  | .unknownMatching name =>
    "Unknown matching mode ".toList ++ Text.quoted name ++ ", expected one of ".toList ++
      Text.join ", ".toList (Matching.all.map Matching.name)

structure Plan where
  strategy : Strategy
  matching : Matching
  /-- The most files that may be reduced at the same time, at least one. -/
  workers : Int
deriving DecidableEq, Repr

def Plan.ofNames (strategy matching : Text) (workers : Int) : Except PlanError Plan :=
  match Strategy.ofName? strategy with
  | none => .error (.unknownStrategy strategy)
  | some s =>
    match Matching.ofName? matching with
    | none => .error (.unknownMatching matching)
    | some m => .ok ⟨s, m, max 1 workers⟩

namespace Reduction

variable {m : Type → Type} [Monad m]

def sourceFailed (path reason : Text) : Outcome :=
  .missing path ("Collaborator failed: ".toList ++ reason)

def versionUnavailable (path : Text) (side : Side) : Outcome :=
  .missing path ("Content of the ".toList ++ side.versionName ++ " version is unavailable".toList)

/-- The two versions of a file, or the outcome if they cannot be had.  A failure counts when it
happens, and a version that is unavailable only after both have been asked for. -/
def versions (source : FileSource m) (path : Path) : m (Except Outcome (Text × Text)) := do
  match ← source.version .before path with
  | .failed reason => return .error (sourceFailed path reason)
  | before =>
    match before, ← source.version .after path with
    | _, .failed reason => return .error (sourceFailed path reason)
    | .text b, .text a => return .ok (b, a)
    | .text _, _ => return .error (versionUnavailable path .after)
    | _, _ => return .error (versionUnavailable path .before)

/-- The outcome with one pair for each hunk.  The versions are asked for only if there is a hunk,
and a rejected header is reported unless a version cannot be had. -/
def byHunks (source : FileSource m) (path : Path) : m (Except DigitLimitExceeded Outcome) := do
  match ← source.diff path with
  | .failed reason => return .ok (sourceFailed path reason)
  | .unavailable => return .ok (.missing path "Diff is unavailable".toList)
  | .text diff =>
    match Diff.parse diff with
    | .error limit => return .error limit
    | .ok parsed =>
      let reports := parsed.rejections.map (Diagnostic.ofRejection path)
      if parsed.hunks.isEmpty then return .ok ⟨path, [], reports⟩
      else
        match ← versions source path with
        | .error outcome => return .ok outcome
        | .ok (before, after) =>
          return (Snapshot.sliceFile path before after parsed.hunks).map fun outcome =>
            { outcome with diagnostics := reports ++ outcome.diagnostics }

def statements (source : FileSource m) (side : Side) (path : Path) (l : Language) (text : Text) :
    m (Option (List Statement)) := do
  return (← source.nodes side path l text).map (Statement.ofNodes text)

def byStatements (source : FileSource m) (matching : Matching) (path : Path) :
    m (Except DigitLimitExceeded Outcome) := do
  match Language.ofPath? path with
  | none => return .ok (.missing path "No grammar for this file type".toList)
  | some l =>
    match ← source.diff path with
    | .failed reason => return .ok (sourceFailed path reason)
    | .unavailable => return .ok (.missing path "Diff is unavailable".toList)
    | .text diff =>
      if Text.allBlank diff then return .ok ⟨path, [], []⟩
      else
        match ← versions source path with
        | .error outcome => return .ok outcome
        | .ok (before, after) =>
          let b ← statements source .before path l before
          let a ← statements source .after path l after
          return Correlation.correlate matching path diff b a

def reduceFile (source : FileSource m) (plan : Plan) (path : Path) :
    m (Except DigitLimitExceeded Outcome) :=
  match plan.strategy with
  | .hunks => byHunks source path
  | .statements => byStatements source plan.matching path

end Reduction
end ChangePairs
