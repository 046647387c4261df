import ChangePairs.Console.Report
import ChangePairs.Number.Integer
import ChangePairs.Path
import ChangePairs.Text.LowerCase

/-!
Asking which files to learn from.  An answer is a list of positions between commas, or empty or
`a` or `all` for every file.  A refused answer is followed by the next question; the first one
that is not refused decides.
-/

namespace ChangePairs
namespace Selection

inductive Refusal where
  | notNumbers
  | outOfRange (count : Nat)
deriving DecidableEq, Repr

def Refusal.message : Refusal → Text
  | .notNumbers => "  Invalid choice. Use numbers separated by commas.".toList
  | .outOfRange count =>
    "  Invalid choice. Pick numbers between 1 and ".toList ++ Text.ofNat count ++ ['.']

def everything : List Text := [[], "a".toList, "all".toList]

/-- The numbers of an answer, or `none` if one of its parts is no number. -/
def numbers? (answer : Text) : Option (List Int) :=
  ((Text.fields ',' answer).filter (!Text.allBlank ·)).mapM fun part => (readInteger part).toOption

/-- The paths at the given positions, which count from 1, in the order of the list. -/
def atPositions (paths : List Path) (positions : List Int) : List Path :=
  ((paths.zipIdx 1).filter fun (_, i) => positions.contains (i : Int)).map Prod.fst

def choose (paths : List Path) (answer : Text) : Except Refusal (List Path) :=
  let choice := Text.lower (Text.trim answer)
  if everything.contains choice then .ok paths
  else
    match numbers? choice with
    | none => .error .notNumbers
    | some numbers =>
      if !numbers.isEmpty && numbers.all fun n => 1 ≤ n && n ≤ paths.length then
        .ok (atPositions paths numbers)
      else .error (.outOfRange paths.length)

def menu (paths : List Path) : Text :=
  let rule : Text := List.replicate 60 '='
  let entry (item : Path × Nat) : Text :=
    "  [".toList ++ Text.ofNat item.2 ++ "] ".toList ++ Path.baseName item.1 ++ "  ".toList ++
      Console.styled .dim item.1
  Console.line ('\n' :: rule) ++
    Console.line "  Select the files you want to learn the diff from".toList ++
    Console.line rule ++ ((paths.zipIdx 1).map fun item => Console.line (entry item)).flatten ++
    ['\n']

/-- The question, which an answer follows on the same line. -/
def question : Text := "  Files (e.g. 1,3) [all]: ".toList

/-- How asking ended: with a choice, or without one when no answer was left. -/
structure Exchange where
  picked : Option (List Path)
  /-- What was shown, without the answers. -/
  transcript : Text
deriving DecidableEq, Repr

def ask (paths : List Path) : List Text → Exchange
  | [] => ⟨none, question⟩
  | answer :: rest =>
    match choose paths answer with
    | .ok picked => ⟨some picked, question⟩
    | .error refusal =>
      let later := ask paths rest
      ⟨later.picked, question ++ Console.line refusal.message ++ later.transcript⟩

def run (paths : List Path) (answers : List Text) : Exchange :=
  let asked := ask paths answers
  ⟨asked.picked, menu paths ++ asked.transcript⟩

end Selection
end ChangePairs
