/-!
Floating-point numbers taken apart: a finite double is a natural number times a power of two.
Conversions to integers and to decimal digits go through this exact form.
-/

namespace ChangePairs

/-- A finite double without its sign, `significand * 2 ^ exponent`. -/
structure Binary where
  significand : Nat
  exponent : Int
  /-- The gap to the double below is half the gap to the one above. -/
  narrowBelow : Bool
deriving DecidableEq, Repr

namespace Binary

def ofBits (bits : UInt64) : Binary :=
  let field : Nat := bits.toNat / Nat.pow 2 52 % Nat.pow 2 11
  let fraction : Nat := bits.toNat % Nat.pow 2 52
  if field = 0 then ⟨fraction, -1074, false⟩
  else ⟨Nat.pow 2 52 + fraction, (field : Int) - 1075, fraction = 0 && 1 < field⟩

def whole (x : Binary) : Nat :=
  if 0 ≤ x.exponent then x.significand * Nat.pow 2 x.exponent.toNat
  else x.significand / Nat.pow 2 (-x.exponent).toNat

end Binary

def isNegative (x : Float) : Bool := Nat.pow 2 63 ≤ x.toBits.toNat

def truncate (x : Float) : Int :=
  let n : Int := (Binary.ofBits x.toBits).whole
  if isNegative x then -n else n

/-- The double nearest to an integer, or `none` beyond the largest double. -/
def nearestDouble? (n : Int) : Option Float :=
  let x := Float.ofScientific n.natAbs false 0
  if x.isInf then none else some (if n < 0 then -x else x)

end ChangePairs
