import ChangePairs.Number.Decimal

/-!
Quantities that are given either as a whole number or as a double, such as a time limit.  A whole
number stays whole under whole factors and is written without a point.
-/

namespace ChangePairs

inductive Amount where
  | whole (n : Int)
  | real (x : Float)

namespace Amount

/-- The double of an amount, or `none` beyond the largest double. -/
def toDouble? : Amount → Option Float
  | .whole n => nearestDouble? n
  | .real x => some x

def text : Amount → Text
  | .whole n => Text.ofInt n
  | .real x => writeDouble x

/-- The amount `factor` times, or `none` if the factor itself is beyond the largest double. -/
def times? (factor : Int) : Amount → Option Amount
  | .whole n => some (.whole (n * factor))
  | .real x => (nearestDouble? factor).map fun f => .real (x * f)

end Amount
end ChangePairs
