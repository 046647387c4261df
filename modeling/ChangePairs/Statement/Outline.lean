import ChangePairs.Text.Utf8

/-!
Top-level statements.  A parser gives the top-level nodes of a file by their octets and their
rows, and each node that is no comment becomes a statement.  A statement's text starts where the
text of the one before it ended, so it holds the blanks and comments between them, and its lines
start where the lines of the one before it ended.
-/

namespace ChangePairs

/-- A place in a file by row and column, both counted from 0. -/
structure Point where
  row : Nat
  column : Nat
deriving DecidableEq, Repr

structure Node where
  kind : Text
  start : Point
  stop : Point
  /-- The number of octets before the end of the node. -/
  endOctet : Nat
deriving DecidableEq, Repr

namespace Node

def isComment (n : Node) : Bool := Text.occursIn "comment".toList n.kind

/-- The row of the node's last character.  A node that ends at the start of a row and began
before it ends with the line feed of the row above. -/
def lastRow (n : Node) : Nat :=
  if n.stop.column = 0 ∧ n.start.row < n.stop.row then n.stop.row - 1 else n.stop.row

end Node

/-- A top-level statement with the blanks and comments before it. -/
structure Statement where
  /-- The position among the statements of the file, from 0 on. -/
  index : Int
  kind : Text
  text : Text
  /-- The line on which what stands before the statement begins. -/
  firstLine : Int
  lastLine : Int
deriving DecidableEq, Repr

namespace Statement

def covers (s : Statement) (line : Int) : Bool := s.firstLine ≤ line ∧ line ≤ s.lastLine

/-- The statements of nodes that continue a file.  `octet` and `row` are where the statement
before them ended, `index` is the position of the next statement. -/
def ofNodesFrom (source : Octets) (index octet row : Nat) : List Node → List Statement
  | [] => []
  | n :: rest =>
    if n.isComment then ofNodesFrom source index octet row rest
    else
      { index
        kind := n.kind
        text := Octets.decode ((source.take n.endOctet).drop octet)
        firstLine := min row n.start.row + 1
        lastLine := n.lastRow + 1 } ::
        ofNodesFrom source (index + 1) n.endOctet (n.lastRow + 1) rest

def ofNodes (source : Text) (nodes : List Node) : List Statement :=
  ofNodesFrom (Octets.encode source) 0 0 0 nodes

end Statement
end ChangePairs
