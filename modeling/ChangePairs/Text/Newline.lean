import ChangePairs.Text.Basic

/-!
Line ends other than the line feed: reading a file turns them into line feeds, and a display
breaks at all of them.
-/

namespace ChangePairs
namespace Text

/-- The text with every carriage return, alone or before a line feed, turned into one line
feed. -/
def unifyNewlines : Text → Text
  | [] => []
  | '\r' :: '\n' :: rest => '\n' :: unifyNewlines rest
  | c :: rest => (if c = '\r' then '\n' else c) :: unifyNewlines rest

/-- Characters after which a display starts a new line.  The unit separator U+001F is not one of
them, although it is blank. -/
def isDisplayBreak (c : Char) : Bool :=
  c = '\n' || c = '\r' || c = '\x0b' || c = '\x0c' || c = '\x1c' || c = '\x1d' || c = '\x1e' ||
    c = '\u0085' || c = '\u2028' || c = '\u2029'

/-- The lines that a display shows, without what ended them.  A carriage return and the line feed
after it end one line together, and nothing follows a break at the very end. -/
def displayLines : Text → List Text
  | [] => []
  | '\r' :: '\n' :: rest => [] :: displayLines rest
  | c :: rest =>
    if isDisplayBreak c then [] :: displayLines rest
    else match displayLines rest with
      | [] => [[c]]
      | line :: more => (c :: line) :: more

end Text
end ChangePairs
