import ChangePairs.Distinct
import ChangePairs.Diff.ChangedLine
import ChangePairs.Snippet
import ChangePairs.Statement.Outline

/-!
Reducing a change to whole statements.  Every meaningful changed line selects statements of its
side, by position or by content, and the texts that are selected on both sides cancel out.  What
is left of each side, in the order of the file, makes one pair.
-/

namespace ChangePairs

inductive Matching where
  /-- The statements whose lines hold the changed line. -/
  | position
  /-- The statements whose text holds the content of the changed line. -/
  | substring
deriving DecidableEq, Repr

namespace Matching

def name : Matching → Text
  | .position => "position".toList
  | .substring => "substring".toList

def all : List Matching := [.position, .substring]

def ofName? (t : Text) : Option Matching := all.find? fun m => m.name = t

def selects (m : Matching) (line : ChangedLine) (s : Statement) : Bool :=
  match m with
  | .position => s.covers line.number
  | .substring => Text.occursIn line.content s.text

end Matching

/-- The texts selected on either side, each once and in the order of the file. -/
structure Candidates where
  before : List Text
  after : List Text
deriving DecidableEq, Repr

namespace Candidates

def selected (m : Matching) (side : Side) (lines : List ChangedLine)
    (statements : List Statement) : List Int :=
  (lines.filter fun l => l.side = side && ChangedLine.isMeaningful l.content).flatMap fun l =>
    (statements.filter (m.selects l)).map Statement.index

def texts (statements : List Statement) (indexes : List Int) : List Text :=
  distinct ((statements.filter fun s => indexes.contains s.index).map Statement.text)

def collect (m : Matching) (hunks : List Hunk) (before after : List Statement) : Candidates :=
  let lines := ChangedLine.ofHunks hunks
  { before := texts before (selected m .before lines before)
    after := texts after (selected m .after lines after) }

def unchanged (c : Candidates) : List Text := c.before.filter c.after.contains

def cancel (c : Candidates) : Candidates :=
  { before := c.before.filter fun t => !c.after.contains t
    after := c.after.filter fun t => !c.before.contains t }

/-- The texts of either side put together, without the line feeds at the start. -/
def pair (c : Candidates) : SnippetPair :=
  { before := c.before.flatten.dropWhile (· = '\n')
    after := c.after.flatten.dropWhile (· = '\n') }

end Candidates

namespace Correlation

/-- The outcome for a file with the given diff and the statements of its versions, of which
either may be missing.  A rejected hunk header leaves the whole file out. -/
def correlate (m : Matching) (path diff : Text) (before? after? : Option (List Statement)) :
    Except DigitLimitExceeded Outcome :=
  let noTree (side : Side) : Except DigitLimitExceeded Outcome := .ok <|
    .missing path ("No syntax tree available for the ".toList ++ side.versionName ++
      " version".toList)
  match before?, after? with
  | none, _ => noTree .before
  | some _, none => noTree .after
  | some before, some after => do
    let parsed ← Diff.parse diff
    if parsed.rejections.isEmpty then
      let pair := (Candidates.collect m parsed.hunks before after).cancel.pair
      return ⟨path, if pair.isEmpty then [] else [pair], []⟩
    else return ⟨path, [], parsed.rejections.map (Diagnostic.ofRejection path)⟩

end Correlation
end ChangePairs
