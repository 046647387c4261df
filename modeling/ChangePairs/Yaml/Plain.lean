import ChangePairs.Yaml.Fold

/-!
Plain scalars, which stand without quotes.  One ends where something else begins: at a tab, at the
colon after a key, at a comment, at a mark between documents, inside a flow collection at what
structures that, and outside of one on a line that is not indented enough.
-/

namespace ChangePairs
namespace Yaml

def isFlowMark (c : Char) : Bool :=
  c = ',' || c = '[' || c = ']' || c = '\x7b' || c = '\x7d'

def isReserved (c : Char) : Bool :=
  isFlowMark c || "#&*!|>'\"%@\x60".toList.contains c

/-- Whether a plain scalar begins here.  A dash, a colon or a question mark begins one only if it
cannot be an indicator. -/
def startsPlain (flow : Bool) : Stream → Bool
  | [] => false
  | c :: rest =>
    if c.char = '-' then !Stream.atBlank rest
    else if c.char = '?' || c.char = ':' then !flow && !Stream.atBlank rest
    else !isSpaceOrTab c.char && !isLineEnd c.char && !isReserved c.char

/-- Whether a plain scalar ends before a character that is no space and no line end. -/
def endsPlain (flow : Bool) (c : Char) (rest : Stream) : Bool :=
  c = '\t' ||
    (c = ':' && (rest.atBlank || (flow && rest.head?.any fun d => isFlowMark d.char))) ||
    (flow && (isFlowMark c || c = '?'))

/-- The end of a plain scalar: its text, whether its last line has ended, and the rest. -/
structure PlainEnd where
  text : Text
  lineEnded : Bool
  rest : Stream

/-- The plain scalar that goes on after a gap.  Without a flow collection around it, its lines
after the first have to stand in the column `indent` or deeper. -/
def plainAfter (flow : Bool) (indent : Nat) (gap : Gap) : Stream → PlainEnd
  | [] => ⟨[], gap.hasLineEnd, []⟩
  | c :: rest =>
    if isLineEnd c.char then
      if Stream.atDocumentMark rest then ⟨[], true, rest⟩
      else plainAfter flow indent (gap.addLineEnd c.char) rest
    else if c.char = ' ' then plainAfter flow indent (gap.addBlank ' ') rest
    else if endsPlain flow c.char rest ||
        (gap ≠ .empty && (c.char = '#' || (!flow && c.column < indent))) then
      ⟨[], gap.hasLineEnd, c :: rest⟩
    else
      let next := plainAfter flow indent .empty rest
      { next with text := gap.text ++ c.char :: next.text }

def plain (flow : Bool) (indent : Nat) (s : Stream) : PlainEnd := plainAfter flow indent .empty s

end Yaml
end ChangePairs
