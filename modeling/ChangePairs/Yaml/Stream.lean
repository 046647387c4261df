import ChangePairs.Text.Basic

/-!
The characters of a YAML document, each with its place.  What a character means depends on the
column in which it stands, and a key has to end on the line on which it begins, so every reader of
this library is given places along with characters.

Carriage returns are taken to have been turned into line feeds before.
-/

namespace ChangePairs
namespace Yaml

def isAllowed (c : Char) : Bool :=
  let n := c.toNat
  n = 0x9 || n = 0xA || n = 0xD || (0x20 ≤ n && n ≤ 0x7E) || n = 0x85 ||
    (0xA0 ≤ n && n ≤ 0xFFFD) || 0x10000 ≤ n

def isLineEnd (c : Char) : Bool := c = '\n' || c = '\u0085' || c = '\u2028' || c = '\u2029'

def lineEndText (c : Char) : Char := if c = '\u0085' then '\n' else c

def dropLineFeed (t : Text) : Text := if t.getLast? = some '\n' then t.dropLast else t

def isSpaceOrTab (c : Char) : Bool := c = ' ' || c = '\t'

def isNameChar (c : Char) : Bool := c.isAlphanum || c = '-' || c = '_'

def hexValue? (c : Char) : Option Nat :=
  if '0' ≤ c ∧ c ≤ '9' then some (c.toNat - '0'.toNat)
  else if 'a' ≤ c ∧ c ≤ 'f' then some (c.toNat - 'a'.toNat + 10)
  else if 'A' ≤ c ∧ c ≤ 'F' then some (c.toNat - 'A'.toNat + 10)
  else none

structure Spot where
  char : Char
  line : Nat
  column : Nat
  /-- The number of characters before it. -/
  index : Nat
deriving DecidableEq, Repr

abbrev Stream := List Spot

namespace Stream

/-- The characters of a text from a place on.  A byte order mark takes up no column. -/
def ofTextAt (line column index : Nat) : Text → Stream
  | [] => []
  | c :: rest =>
    ⟨c, line, column, index⟩ ::
      (if isLineEnd c then ofTextAt (line + 1) 0 (index + 1) rest
      else if c = '\ufeff' then ofTextAt line column (index + 1) rest
      else ofTextAt line (column + 1) (index + 1) rest)

def ofText (t : Text) : Stream := ofTextAt 0 0 0 t

def text (s : Stream) : Text := s.map Spot.char

def atBlank : Stream → Bool
  | [] => true
  | c :: _ => isSpaceOrTab c.char || isLineEnd c.char

def atMark (c : Char) : Stream → Bool
  | x :: y :: z :: rest => x.char = c && y.char = c && z.char = c && atBlank rest
  | _ => false

def atDocumentMark (s : Stream) : Bool := atMark '-' s || atMark '.' s

def splitLine (s : Stream) : Stream × Stream := s.span fun c => !isLineEnd c.char

def lines : Stream → List Stream
  | [] => []
  | c :: rest =>
    if isLineEnd c.char then [c] :: lines rest
    else match lines rest with
      | [] => [[c]]
      | line :: more => (c :: line) :: more

end Stream
end Yaml
end ChangePairs
