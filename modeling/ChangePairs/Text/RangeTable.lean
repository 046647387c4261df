import ChangePairs.Text.Basic

/-!
Properties of characters as tables.  A table lists closed ranges of code points in ascending
order, and a look-up stops at the first range that begins beyond the character, so a question
about a common character costs one comparison.
-/

namespace ChangePairs
namespace Text

/-- Closed ranges of code points, ascending and apart. -/
abbrev RangeTable := List (Nat × Nat)

namespace RangeTable

def covers : RangeTable → Nat → Bool
  | [], _ => false
  | (low, high) :: rest, n => if n < low then false else n ≤ high || covers rest n

end RangeTable
end Text
end ChangePairs
