import ChangePairs.Calendar
import ChangePairs.Number.Decimal

/-!
Values without parts: nothing, truth values, numbers, texts, octets, dates and points in time.
They are also the keys of mappings, where numbers count by what they are and not by how they are
given: a truth value is zero or one, and a double without a fraction is an integer.
-/

namespace ChangePairs

inductive Scalar where
  | null
  | bool (b : Bool)
  | int (n : Int)
  | float (x : Float)
  | text (t : Text)
  | octets (b : Octets)
  | date (d : Date)
  | dateTime (d : DateTime)
deriving Inhabited

namespace Scalar

def integer? : Scalar → Option Int
  | .bool b => some (if b then 1 else 0)
  | .int n => some n
  | .float x =>
    if x.isNaN || x.isInf then none
    else
      let n := truncate x
      if (nearestDouble? n).any (· == x) then some n else none
  | _ => none

def isSameKey : Scalar → Scalar → Bool
  | .null, .null => true
  | .text s, .text t => s = t
  | .octets a, .octets b => a = b
  | .date d, .date e => d = e
  | .dateTime d, .dateTime e => d = e
  | .float x, .float y => x == y
  | s, t =>
    match s.integer?, t.integer? with
    | some m, some n => m = n
    | _, _ => false

/-- The key that a text is differs from every other scalar. -/
theorem isSameKey_text {s : Scalar} {t : Text} : s.isSameKey (.text t) = true ↔ s = .text t := by
  cases s <;> simp [isSameKey, integer?]

def written : Scalar → Except DigitLimitExceeded Text
  | .null => .ok "None".toList
  | .bool b => .ok (if b then "True".toList else "False".toList)
  | .int n => writeInteger n
  | .float x => .ok (writeDouble x)
  | .text t => .ok (Text.quoted t)
  | .octets b => .ok b.quoted
  | .date d => .ok d.written
  | .dateTime d => .ok d.written

def toText : Scalar → Except DigitLimitExceeded Text
  | .text t => .ok t
  | .date d => .ok d.text
  | .dateTime d => .ok d.text
  | s => s.written

end Scalar
end ChangePairs
