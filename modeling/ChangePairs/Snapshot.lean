import ChangePairs.Snippet

/-!
Cutting a hunk's line ranges out of the two versions of a file.  A range is cut by its numbers
alone, and the snippet loses the terminator of its last line.  A range that does not fit into its
version gives a diagnostic instead, the old one first.
-/

namespace ChangePairs
namespace Snapshot

/-- A bound of a slice: counted from the end if it is negative, and never outside the list. -/
def bound (length : Nat) (i : Int) : Nat :=
  if 0 ≤ i then min i.toNat length else length - (-i).toNat

def slice {α : Type} (l : List α) (first last : Int) : List α :=
  (l.take (bound l.length last)).drop (bound l.length first)

/-- The lines of a range as one text, or `none` if the range does not fit.  An empty range fits
everywhere. -/
def take? (lines : List Text) (r : LineRange) : Option Text :=
  if r.count = 0 then some []
  else if r.start < 1 ∨ (lines.length : Int) < r.stop then none
  else some (Text.dropTerminator (slice lines (r.start - 1) (r.start - 1 + r.count)).flatten)

/-- The diagnostic for a range that does not fit into a version of `total` lines. -/
def outOfRange (path : Text) (h : Hunk) (side : Side) (total : Nat) :
    Except DigitLimitExceeded Diagnostic := do
  let first ← writeInteger (h.range side).start
  let last ← writeInteger (h.range side).stop
  let message := side.rangeName ++ " range ".toList ++ first ++ ['-'] ++ last ++
    " exceeds file length (".toList ++ Text.ofNat total ++ " lines)".toList
  return ⟨.parseError, path, message, some h.header⟩

def sliceLines (path : Text) (before after : List Text) (h : Hunk) :
    Except DigitLimitExceeded (Except Diagnostic SnippetPair) :=
  match take? before h.old with
  | none => (outOfRange path h .before before.length).map .error
  | some b =>
    match take? after h.new with
    | none => (outOfRange path h .after after.length).map .error
    | some a => .ok (.ok ⟨b, a⟩)

def sliceHunk (path before after : Text) (h : Hunk) :
    Except DigitLimitExceeded (Except Diagnostic SnippetPair) :=
  sliceLines path (Text.lines before) (Text.lines after) h

/-- The pairs and diagnostics of hunks in their order.  A pair with nothing on either side is
left out. -/
def sliceAll (path : Text) (before after : List Text) :
    List Hunk → Except DigitLimitExceeded (List SnippetPair × List Diagnostic)
  | [] => .ok ([], [])
  | h :: rest => do
    let result ← sliceLines path before after h
    let (pairs, diagnostics) ← sliceAll path before after rest
    match result with
    | .error d => return (pairs, d :: diagnostics)
    | .ok pair => return (if pair.isEmpty then pairs else pair :: pairs, diagnostics)

def sliceFile (path before after : Text) (hunks : List Hunk) :
    Except DigitLimitExceeded Outcome := do
  let (pairs, diagnostics) ← sliceAll path (Text.lines before) (Text.lines after) hunks
  return ⟨path, pairs, diagnostics⟩

end Snapshot
end ChangePairs
