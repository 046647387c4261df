import ChangePairs.Reduction

/-!
Collecting the outcomes of files into one request.  The pairs of a file stay together, in the
order in which they came, and the files stand in the order of their first pair.  A file without a
pair is counted and its diagnostics are kept, and that is all.
-/

namespace ChangePairs

/-- The snippets of one request, each with the path of its file. -/
structure LearningRequest where
  snippets : List (Path × SnippetPair)
deriving DecidableEq, Repr

namespace LearningRequest

def pairs (r : LearningRequest) : List SnippetPair := r.snippets.map Prod.snd

def sources (r : LearningRequest) : List Path := r.snippets.map Prod.fst

end LearningRequest

structure NothingToLearn where
  /-- The number of files that were reduced. -/
  files : Nat
deriving DecidableEq, Repr

def NothingToLearn.message (e : NothingToLearn) : Text :=
  "None of the ".toList ++ Text.ofNat e.files ++
    " processed file(s) produced a change to learn from".toList

structure Collection where
  /-- The number of outcomes. -/
  seen : Nat
  /-- The files with pairs, in the order of their first pair, each with its pairs. -/
  byFile : List (Path × List SnippetPair)
  diagnostics : List Diagnostic
deriving DecidableEq, Repr

namespace Collection

def empty : Collection := ⟨0, [], []⟩

/-- Puts pairs at the end of a file's pairs, or the file at the end. -/
def insert (path : Path) (pairs : List SnippetPair) :
    List (Path × List SnippetPair) → List (Path × List SnippetPair)
  | [] => [(path, pairs)]
  | (p, present) :: rest =>
    if p = path then (p, present ++ pairs) :: rest else (p, present) :: insert path pairs rest

def add (c : Collection) (o : Outcome) : Collection :=
  { seen := c.seen + 1
    byFile := if o.pairs.isEmpty then c.byFile else insert o.path o.pairs c.byFile
    diagnostics := c.diagnostics ++ o.diagnostics }

def ofOutcomes (outcomes : List Outcome) : Collection := outcomes.foldl add empty

def files (c : Collection) : List Path := c.byFile.map Prod.fst

def pairs (c : Collection) : List SnippetPair := c.byFile.flatMap Prod.snd

def isEmpty (c : Collection) : Bool := c.byFile.isEmpty

def request (c : Collection) : Except NothingToLearn LearningRequest :=
  if c.isEmpty then .error ⟨c.seen⟩
  else .ok ⟨c.byFile.flatMap fun (path, pairs) => pairs.map fun pair => (path, pair)⟩

end Collection

namespace Reduction

variable {m : Type → Type} [Monad m]

def run (source : FileSource m) (plan : Plan) (paths : List Path) :
    m (Except DigitLimitExceeded Collection) := do
  let results ← paths.mapM (reduceFile source plan)
  return do
    let outcomes ← results.mapM id
    return Collection.ofOutcomes outcomes

end Reduction
end ChangePairs
