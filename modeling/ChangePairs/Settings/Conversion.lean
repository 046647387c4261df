import ChangePairs.Settings.Value

/-!
Values as texts, integers and doubles.  Every value has a text.  A truth value counts as zero or
one, a text or octets have to spell a number, and dates and collections are no numbers.
-/

namespace ChangePairs

inductive NumberForm where
  | integer
  | double
deriving DecidableEq, Repr

inductive NonNumber where
  | null
  | date
  | dateTime
  | list
  | pair
  | set
  | mapping
deriving DecidableEq, Repr

inductive ConversionError where
  | digitLimit (e : DigitLimitExceeded)
  | integer (e : IntegerError)
  | double (e : DoubleError)
  /-- Octets that spell no number of the form. -/
  | octets (form : NumberForm) (b : Octets)
  /-- An infinity has no integer. -/
  | infinite
  /-- What is no number has no integer. -/
  | undefined
  /-- The integer lies beyond the largest double. -/
  | tooLarge
  | notNumber (form : NumberForm) (value : NonNumber)
deriving DecidableEq, Repr

namespace ConversionError

def valueName : NonNumber → Text
  | .null => "NoneType".toList
  | .date => "datetime.date".toList
  | .dateTime => "datetime.datetime".toList
  | .list => "list".toList
  | .pair => "tuple".toList
  | .set => "set".toList
  | .mapping => "dict".toList

def expectation : NumberForm → Text
  | .integer => "int() argument must be a string, a bytes-like object or a real number".toList
  | .double => "float() argument must be a string or a real number".toList

def message : ConversionError → Text
  | .digitLimit e => e.message
  | .integer e => e.message
  | .double e => e.message
  | .octets .integer b =>
    "invalid literal for int() with base 10: ".toList ++ (Octets.quoted (b.take 200)).take 200
  | .octets .double b => "could not convert string to float: ".toList ++ b.quoted
  | .infinite => "cannot convert float infinity to integer".toList
  | .undefined => "cannot convert float NaN to integer".toList
  | .tooLarge => "int too large to convert to float".toList
  | .notNumber form value => expectation form ++ ", not '".toList ++ valueName value ++ ['\'']

end ConversionError

namespace Value

def toText : Value → Except ConversionError Text
  | .scalar s => s.toText.mapError .digitLimit
  | v => v.written.mapError .digitLimit

def nonNumber : Value → NonNumber
  | .scalar (.date _) => .date
  | .scalar (.dateTime _) => .dateTime
  | .scalar _ => .null
  | .list _ | .enclosing true => .list
  | .pair .. => .pair
  | .set _ => .set
  | .mapping _ | .enclosing false => .mapping

/-- Octets as a text in which everything but ASCII is the replacement character, so that it spells
a number only if they do. -/
def spelling (b : Octets) : Text :=
  b.map fun n => if n < 0x80 then Char.ofNat n else Octets.replacement

/-- The integer of a value.  A double is cut off at the point. -/
def toInt : Value → Except ConversionError Int
  | .scalar (.bool b) => .ok (if b then 1 else 0)
  | .scalar (.int n) => .ok n
  | .scalar (.float x) =>
    if x.isNaN then .error .undefined
    else if x.isInf then .error .infinite
    else .ok (truncate x)
  | .scalar (.text t) => (readInteger t).mapError .integer
  | .scalar (.octets b) =>
    (readInteger (spelling b)).mapError fun e =>
      match e with
      | .malformed _ => .octets .integer b
      | e => .integer e
  | v => .error (.notNumber .integer v.nonNumber)

def toDouble : Value → Except ConversionError Float
  | .scalar (.bool b) => .ok (if b then 1.0 else 0.0)
  | .scalar (.int n) =>
    match nearestDouble? n with
    | some x => .ok x
    | none => .error .tooLarge
  | .scalar (.float x) => .ok x
  | .scalar (.text t) => (readDouble t).mapError .double
  | .scalar (.octets b) => (readDouble (spelling b)).mapError fun _ => .octets .double b
  | v => .error (.notNumber .double v.nonNumber)

end Value
end ChangePairs
