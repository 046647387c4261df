import ChangePairs.Diff.Hunk
import ChangePairs.Text.Blank

/-!
The deleted and added lines of hunks, each with its content and its line number.  A deleted line
counts on the old side, an added one on the new side and every other line on both, the note about
a missing line feed at the end of a file excepted, which is no line of either side.
-/

namespace ChangePairs

structure ChangedLine where
  /-- The side that the line belongs to: before for a deletion, after for an addition. -/
  side : Side
  /-- The line without its marker and without blanks at either end. -/
  content : Text
  /-- The number of the line on its side. -/
  number : Int
deriving DecidableEq, Repr

namespace ChangedLine

def marker : Side → Char
  | .before => '-'
  | .after => '+'

def ofBody (old new : Int) : List Text → List ChangedLine
  | [] => []
  | line :: rest =>
    match line with
    | '\\' :: _ => ofBody old new rest
    | '-' :: content => ⟨.before, Text.trim content, old⟩ :: ofBody (old + 1) new rest
    | '+' :: content => ⟨.after, Text.trim content, new⟩ :: ofBody old (new + 1) rest
    | _ => ofBody (old + 1) (new + 1) rest

def ofHunk (h : Hunk) : List ChangedLine := ofBody h.old.start h.new.start h.bodyLines

def ofHunks (hunks : List Hunk) : List ChangedLine := hunks.flatMap ofHunk

/-- Characters that carry no meaning on their own: brackets, separators, quotes, operators made
of them, and blanks. -/
def isFiller (c : Char) : Bool :=
  Text.isBlank c || "\x7b\x7d()[]:;,/?'\"<>|=`!".toList.contains c

/-- Whether the content holds anything but fillers. -/
def isMeaningful (content : Text) : Bool := content.any fun c => !isFiller c

end ChangedLine
end ChangePairs
