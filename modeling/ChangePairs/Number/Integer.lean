import ChangePairs.Text.Blank
import ChangePairs.Text.DecimalDigit
import ChangePairs.Text.Quoted

/-!
Integers in text.  An integer is a sign, if any, and decimal digits of any script, with single
underscores between digits and with space around the whole.  Neither a text that is read nor an
integer that is written may have more than `digitLimit` digits; a text that breaks this limit and
another rule as well is reported for the limit only if its run of digits is in order.
-/

namespace ChangePairs

def digitLimit : Nat := 4300

inductive DigitLimitExceeded where
  | reading (digits : Nat)
  | writing
deriving DecidableEq, Repr

def DigitLimitExceeded.message : DigitLimitExceeded → Text
  | .reading digits =>
    "Exceeds the limit (4300 digits) for integer string conversion: value has ".toList ++
      Text.ofNat digits ++
      " digits; use sys.set_int_max_str_digits() to increase the limit".toList
  | .writing =>
    ("Exceeds the limit (4300 digits) for integer string conversion; " ++
      "use sys.set_int_max_str_digits() to increase the limit").toList

def numberOfDigits (digits : List Nat) : Nat := digits.foldl (fun n d => 10 * n + d) 0

def writeInteger (n : Int) : Except DigitLimitExceeded Text :=
  if (Text.ofNat n.natAbs).length ≤ digitLimit then .ok (Text.ofInt n) else .error .writing

/-- Space that may stand around a number: blanks other than the information separators. -/
def isNumberSpace (c : Char) : Bool := Text.isBlank c && !(0x1C ≤ c.toNat && c.toNat ≤ 0x1F)

def trimNumber (t : Text) : Text := Text.dropEnd isNumberSpace (t.dropWhile isNumberSpace)

/-- The digits at the start of a text and what follows them.  `inside` tells whether a digit
stands before the text, and then an underscore belongs to the digits: it has to stand before
another one, or there is no reading. -/
def digitRunFrom (inside : Bool) : Text → Option (List Nat × Text)
  | [] => some ([], [])
  | c :: rest =>
    match Text.digitValue? c with
    | some d => (digitRunFrom true rest).map fun (digits, after) => (d :: digits, after)
    | none =>
      if inside && c = '_' then
        if (rest.head?.bind Text.digitValue?).isSome then digitRunFrom false rest else none
      else some ([], c :: rest)

def digitRun (t : Text) : Option (List Nat × Text) := digitRunFrom false t

/-- The sign at the start of a text, `true` for minus, and what follows it. -/
def splitSign : Text → Bool × Text
  | '-' :: rest => (true, rest)
  | '+' :: rest => (false, rest)
  | t => (false, t)

inductive IntegerError where
  | malformed (t : Text)
  | tooLong (limit : DigitLimitExceeded)
deriving DecidableEq, Repr

/-- The quotation of a malformed text is cut after 200 characters. -/
def IntegerError.message : IntegerError → Text
  | .malformed t => "invalid literal for int() with base 10: ".toList ++ (Text.quoted t).take 200
  | .tooLong limit => limit.message

def readInteger (t : Text) : Except IntegerError Int :=
  let (negative, body) := splitSign (trimNumber t)
  match digitRun body with
  | none => .error (.malformed t)
  | some (digits, after) =>
    if digitLimit < digits.length then .error (.tooLong (.reading digits.length))
    else if digits.isEmpty || !after.isEmpty then .error (.malformed t)
    else
      let n : Int := numberOfDigits digits
      .ok (if negative then -n else n)

end ChangePairs
