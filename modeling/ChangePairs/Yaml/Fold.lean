import ChangePairs.Yaml.Stream

/-!
Scalars over several lines.  Blanks around a line end are dropped.  A single line feed between two
lines becomes a space; of more than one, the first is dropped and the others stay; a line or
paragraph separator always stays.
-/

namespace ChangePairs
namespace Yaml

inductive Gap where
  | blanks (t : Text)
  /-- Line ends: the first one, unless it was joined away, and those after it. -/
  | breaks (first : Option Char) (more : Text)
deriving DecidableEq, Repr

namespace Gap

def empty : Gap := .blanks []

def text : Gap → Text
  | .blanks t => t
  | .breaks none more => more
  | .breaks (some c) more =>
    if c ≠ '\n' then c :: more else if more.isEmpty then [' '] else more

/-- One more space or tab, which counts for nothing after a line end. -/
def addBlank (c : Char) : Gap → Gap
  | .blanks t => .blanks (t ++ [c])
  | g => g

def addLineEnd (c : Char) : Gap → Gap
  | .blanks _ => .breaks (some (lineEndText c)) []
  | .breaks first more => .breaks first (more ++ [lineEndText c])

def hasLineEnd : Gap → Bool
  | .blanks _ => false
  | .breaks .. => true

end Gap

inductive Piece where
  /-- A character that stays as it is. -/
  | char (c : Char)
  | blank (c : Char)
  | lineEnd (c : Char)
  /-- A line end that leaves nothing behind, not even a space. -/
  | joint
deriving DecidableEq, Repr

namespace Piece

def foldAfter (gap : Gap) : List Piece → Text
  | [] => gap.text
  | .char c :: rest => gap.text ++ c :: foldAfter .empty rest
  | .blank c :: rest => foldAfter (gap.addBlank c) rest
  | .lineEnd c :: rest => foldAfter (gap.addLineEnd c) rest
  | .joint :: rest => gap.text ++ foldAfter (.breaks none []) rest

def fold (pieces : List Piece) : Text := foldAfter .empty pieces

end Piece
end Yaml
end ChangePairs
