import ChangePairs.Side
import ChangePairs.Text.Line

/-!
A hunk is one region of change in the unified diff of a file: a header with a line range on either
side, and body lines that are context, deleted or added.  The ranges are integers, since a hunk
may also come from elsewhere than a parsed header.
-/

namespace ChangePairs

/-- `count` lines from line `start` on, the first line of a file being 1. -/
structure LineRange where
  start : Int
  count : Int
deriving DecidableEq, Repr

namespace LineRange

def stop (r : LineRange) : Int := r.start + r.count - 1

end LineRange

structure Hunk where
  header : Text
  old : LineRange
  new : LineRange
  /-- The hunk as it stands in the diff, its header line included. -/
  text : Text
deriving DecidableEq, Repr

namespace Hunk

def range (h : Hunk) : Side → LineRange
  | .before => h.old
  | .after => h.new

def isInsertion (h : Hunk) : Bool := h.old.count = 0

def isDeletion (h : Hunk) : Bool := h.new.count = 0

def bodyLines (h : Hunk) : List Text := ((Text.lines h.text).drop 1).map Text.chompLine

end Hunk
end ChangePairs
