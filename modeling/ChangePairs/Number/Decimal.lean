import ChangePairs.Number.Binary
import ChangePairs.Number.Integer

/-!
Doubles in decimal.  A double is written with the fewest digits that read back to it, and of
those the ones nearest to it, an exact tie going to the even digit.  It is written positionally
when its leading digit stands between the fourth place after the point and the sixteenth before
it, and with an exponent of at least two digits otherwise.

The digits are found by exact arithmetic.  The reals that round to a double form an interval from
halfway to the double below to halfway to the double above, with its ends if the significand is
even.  A decimal with `n` digits stands on the grid of multiples of a power of ten, and the only
two candidates on a grid are the neighbours of the double itself.
-/

namespace ChangePairs

/-- The number `digits * 10 ^ scale`. -/
structure Decimal where
  digits : Nat
  scale : Int
deriving DecidableEq, Repr

namespace Decimal

/-- Compares `a * 10 ^ i` with `n * 2 ^ j`. -/
def compareScaled (a : Nat) (i : Int) (n : Nat) (j : Int) : Ordering :=
  compare (a * Nat.pow 10 i.toNat * Nat.pow 2 (-j).toNat)
    (n * Nat.pow 2 j.toNat * Nat.pow 10 (-i).toNat)

/-- Whether the decimal lies among the reals that round to `x`. -/
def readsBack (x : Binary) (d : Decimal) : Bool :=
  let low := if x.narrowBelow then 4 * x.significand - 1 else 4 * x.significand - 2
  let high := 4 * x.significand + 2
  let closed := x.significand % 2 = 0
  let below := compareScaled d.digits d.scale low (x.exponent - 2)
  let above := compareScaled d.digits d.scale high (x.exponent - 2)
  (below = .gt || (closed && below = .eq)) && (above = .lt || (closed && above = .eq))

/-- The least `k` with `x < 10 ^ k`, for `x` other than zero.  The binary logarithm gives it up
to two steps. -/
def magnitude (x : Binary) : Int :=
  let log : Int := x.significand.log2 + x.exponent
  let k := log * 30103 / 100000
  let fits (k : Int) : Bool := compareScaled 1 k x.significand x.exponent = .gt
  if fits k then k else if fits (k + 1) then k + 1 else k + 2

/-- The neighbour of `x` on the grid of multiples of `10 ^ scale` that reads back to `x`; the
nearer one if both do, and the even one of two equally near. -/
def onGrid? (x : Binary) (scale : Int) : Option Decimal :=
  let num := x.significand * Nat.pow 2 x.exponent.toNat * Nat.pow 10 (-scale).toNat
  let den := Nat.pow 2 (-x.exponent).toNat * Nat.pow 10 scale.toNat
  let lower := num / den
  let candidates := [lower, lower + 1].filter fun n => readsBack x ⟨n, scale⟩
  match candidates with
  | [a, b] =>
    match compare (2 * num) ((a + b) * den) with
    | .lt => some ⟨a, scale⟩
    | .gt => some ⟨b, scale⟩
    | .eq => some ⟨if a % 2 = 0 then a else b, scale⟩
  | [a] => some ⟨a, scale⟩
  | _ => none

def strip : Nat → Decimal → Decimal
  | 0, d => d
  | steps + 1, d =>
    if d.digits ≠ 0 ∧ d.digits % 10 = 0 then strip steps ⟨d.digits / 10, d.scale + 1⟩ else d

/-- The exact value, the last resort of `shortest`. -/
def exact (x : Binary) : Decimal :=
  if 0 ≤ x.exponent then ⟨x.significand * Nat.pow 2 x.exponent.toNat, 0⟩
  else ⟨x.significand * Nat.pow 5 (-x.exponent).toNat, x.exponent⟩

/-- The fewest digits that read back to `x`, for `x` other than zero.  Seventeen always do. -/
def shortest (x : Binary) : Decimal :=
  let k := magnitude x
  let found := (List.range 17).findSome? fun (n : Nat) => onGrid? x (k - n - 1)
  strip 20 (found.getD (exact x))

def exponentText (e : Int) : Text :=
  let digits := Text.ofNat e.natAbs
  'e' :: (if e < 0 then '-' else '+') :: (List.replicate (2 - digits.length) '0' ++ digits)

/-- The decimal written out.  `point` digits stand before the point. -/
def layout (d : Decimal) : Text :=
  let digits := Text.ofNat d.digits
  let point : Int := digits.length + d.scale
  if -4 < point ∧ point ≤ 16 then
    if point ≤ 0 then '0' :: '.' :: (List.replicate (-point).toNat '0' ++ digits)
    else if digits.length ≤ point then
      digits ++ List.replicate (point.toNat - digits.length) '0' ++ ['.', '0']
    else digits.take point.toNat ++ '.' :: digits.drop point.toNat
  else
    match digits with
    | [] => []
    | [lead] => lead :: exponentText (point - 1)
    | lead :: rest => lead :: '.' :: rest ++ exponentText (point - 1)

end Decimal

def writeDouble (x : Float) : Text :=
  if x.isNaN then "nan".toList
  else
    let sign : Text := if isNegative x then ['-'] else []
    if x.isInf then sign ++ "inf".toList
    else
      let b := Binary.ofBits x.toBits
      if b.significand = 0 then sign ++ "0.0".toList
      else sign ++ (Decimal.shortest b).layout

/-- The double nearest to `digits * 10 ^ scale`.  A scale that puts the number beyond every
double, or below the least one, is not carried out. -/
def Decimal.toDouble (d : Decimal) : Float :=
  let length : Int := (Text.ofNat d.digits).length
  if d.digits = 0 then 0.0
  else if 400 < length + d.scale then 1.0 / 0.0
  else if length + d.scale < -400 then 0.0
  else Float.ofScientific d.digits (d.scale < 0) d.scale.natAbs

def asciiLower (t : Text) : Text := t.map Char.toLower

def readExponent? : Text → Option Int
  | [] => some 0
  | c :: rest =>
    if c = 'e' || c = 'E' then
      let (negative, body) := splitSign rest
      match digitRun body with
      | some (d :: digits, []) =>
        let n : Int := numberOfDigits (d :: digits)
        some (if negative then -n else n)
      | _ => none
    else none

def readDecimal? (t : Text) : Option Decimal := do
  let (whole, after) ← digitRun t
  let (fraction, after) ← match after with
    | '.' :: rest => digitRun rest
    | _ => some ([], after)
  if whole.isEmpty && fraction.isEmpty then none
  else
    let e ← readExponent? after
    some ⟨numberOfDigits (whole ++ fraction), e - fraction.length⟩

structure DoubleError where
  text : Text
deriving DecidableEq, Repr

def DoubleError.message (e : DoubleError) : Text :=
  "could not convert string to float: ".toList ++ Text.quoted e.text

/-- Reads a double: a decimal number, or one of the names of infinity and of the number that is
none, in any case.  A sign may stand before it and space around it. -/
def readDouble (t : Text) : Except DoubleError Float :=
  let (negative, body) := splitSign (trimNumber t)
  let name := asciiLower body
  let value? : Option Float :=
    if name = "inf".toList || name = "infinity".toList then some (1.0 / 0.0)
    else if name = "nan".toList then some (0.0 / 0.0)
    else (readDecimal? body).map Decimal.toDouble
  match value? with
  | some x => .ok (if negative then -x else x)
  | none => .error ⟨t⟩

end ChangePairs
