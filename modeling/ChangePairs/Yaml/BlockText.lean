import ChangePairs.Yaml.Stream

/-!
Block scalars, which a bar or an angle begins and the indentation of their lines holds together.
After a bar every line end stays.  After an angle the line end between two lines becomes a space,
or nothing if empty lines are between them, unless one of the two begins with a blank.
-/

namespace ChangePairs
namespace Yaml

inductive Chomp where
  /-- None stays. -/
  | strip
  /-- The first one stays. -/
  | clip
  /-- All of them stay. -/
  | keep
deriving DecidableEq, Repr

def Chomp.ofChar? : Char → Option Chomp
  | '+' => some .keep
  | '-' => some .strip
  | _ => none

structure BlockHeader where
  chomp : Chomp
  /-- The number of columns by which the lines are indented, if it is given. -/
  increment : Option Nat
deriving DecidableEq, Repr

def increment? (c : Char) : Option Nat :=
  if '1' ≤ c ∧ c ≤ '9' then some (c.toNat - '0'.toNat) else none

def BlockHeader.ofText (t : Text) : BlockHeader × Text :=
  match t with
  | [] => (⟨.clip, none⟩, [])
  | c :: rest =>
    match Chomp.ofChar? c, increment? c with
    | some chomp, _ =>
      match rest.head?.bind increment? with
      | some n => (⟨chomp, some n⟩, rest.drop 1)
      | none => (⟨chomp, none⟩, rest)
    | none, some n =>
      match rest.head?.bind Chomp.ofChar? with
      | some chomp => (⟨chomp, some n⟩, rest.drop 1)
      | none => (⟨.clip, some n⟩, rest)
    | none, none => (⟨.clip, none⟩, t)

/-- The header that a text is.  Only a comment may follow the signs. -/
def BlockHeader.read? (t : Text) : Option BlockHeader :=
  let (header, rest) := ofText t
  let after := rest.dropWhile (· = ' ')
  if (rest.isEmpty || rest.head? = some ' ') && (after.isEmpty || after.head? = some '#') then
    some header
  else none

def indentation (line : Stream) : Nat := (line.takeWhile fun c => c.char = ' ').length

/-- The indentation of the first line that holds something, or of an empty line before it that is
longer. -/
def detectIndent : List Stream → Nat
  | [] => 0
  | line :: more =>
    let n := indentation line
    match line.drop n with
    | [] => n
    | c :: _ => if isLineEnd c.char then max n (detectIndent more) else n

inductive BlockLine where
  | empty (lineEnd : Char)
  /-- A line with its text after the indentation and, except at the end of the document, its line
  end. -/
  | content (text : Text) (lineEnd : Option Char)
deriving DecidableEq, Repr

/-- A line in a block scalar of the given indentation, or `none` if it is no part of it. -/
def BlockLine.ofLine? (indent : Nat) (line : Stream) : Option BlockLine :=
  let n := min indent (indentation line)
  let rest := line.drop n
  match rest with
  | [] => none
  | c :: _ =>
    if isLineEnd c.char then some (.empty (lineEndText c.char))
    else if n = indent then
      let (text, lineEnd) := Stream.splitLine rest
      some (.content (Stream.text text) (lineEnd.head?.map fun c => lineEndText c.char))
    else none

/-- The lines of a block scalar, and the rest. -/
def blockLines (indent : Nat) : List Stream → List BlockLine × Stream
  | [] => ([], [])
  | line :: more =>
    match BlockLine.ofLine? indent line with
    | none => ([], (line :: more).flatten)
    | some b =>
      let (found, rest) := blockLines indent more
      (b :: found, rest)

structure BlockGap where
  /-- The end of the line before, if there is one. -/
  lineEnd : Text
  /-- Whether the line before begins with something other than a blank. -/
  flush : Bool
  /-- The ends of the empty lines since then. -/
  breaks : Text
deriving DecidableEq, Repr

namespace BlockGap

def start : BlockGap := ⟨[], false, []⟩

def text (folded nextFlush : Bool) (g : BlockGap) : Text :=
  if folded && g.lineEnd = ['\n'] && g.flush && nextFlush then
    if g.breaks.isEmpty then [' '] else g.breaks
  else g.lineEnd ++ g.breaks

def ending (chomp : Chomp) (g : BlockGap) : Text :=
  match chomp with
  | .strip => []
  | .clip => g.lineEnd
  | .keep => g.lineEnd ++ g.breaks

end BlockGap

def blockTextAfter (folded : Bool) (chomp : Chomp) (gap : BlockGap) : List BlockLine → Text
  | [] => gap.ending chomp
  | .empty c :: more => blockTextAfter folded chomp { gap with breaks := gap.breaks ++ [c] } more
  | .content t lineEnd :: more =>
    let flush := !t.head?.any isSpaceOrTab
    gap.text folded flush ++ t ++
      blockTextAfter folded chomp ⟨lineEnd.toList, flush, []⟩ more

/-- The text of a block scalar after its indicator, and the rest.  Its lines have to be indented
by `least` columns, which a header counts from. -/
def blockText? (folded : Bool) (least : Nat) (s : Stream) : Option (Text × Stream) := do
  let (first, rest) := Stream.splitLine s
  let header ← BlockHeader.read? (Stream.text first)
  let lines := Stream.lines (rest.drop 1)
  let indent := match header.increment with
    | some n => least + n - 1
    | none => max least (detectIndent lines)
  let (found, rest) := blockLines indent lines
  return (blockTextAfter folded header.chomp .start found, rest)

end Yaml
end ChangePairs
