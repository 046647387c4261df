import ChangePairs.Text.Basic

/-!
Dates, and points in time by the clock of some place.  Each has a plain text and a written form
that names its parts.
-/

namespace ChangePairs

/-- The decimal digits of `n`, with zeros in front up to the given width. -/
def Text.ofNatPadded (width n : Nat) : Text :=
  let digits := Text.ofNat n
  List.replicate (width - digits.length) '0' ++ digits

inductive DateError where
  | year (n : Nat)
  | month
  | day
  | hour
  | minute
  | second
  /-- A clock that is a day or more away from universal time, by so many minutes. -/
  | offset (minutes : Int)
deriving DecidableEq, Repr

structure Date where
  year : Nat
  month : Nat
  day : Nat
deriving DecidableEq, Repr

namespace Date

def isLeapYear (year : Nat) : Bool := year % 4 = 0 && (year % 100 ≠ 0 || year % 400 = 0)

def daysInMonth (year month : Nat) : Nat :=
  if month = 2 then if isLeapYear year then 29 else 28
  else if [4, 6, 9, 11].contains month then 30
  else 31

def ofNumbers (year month day : Nat) : Except DateError Date :=
  if year = 0 then .error (.year year)
  else if month = 0 ∨ 12 < month then .error .month
  else if day = 0 ∨ daysInMonth year month < day then .error .day
  else .ok ⟨year, month, day⟩

def text (d : Date) : Text :=
  Text.ofNatPadded 4 d.year ++ '-' :: Text.ofNatPadded 2 d.month ++
    '-' :: Text.ofNatPadded 2 d.day

def written (d : Date) : Text :=
  "datetime.date(".toList ++
    Text.join ", ".toList ([d.year, d.month, d.day].map Text.ofNat) ++ [')']

end Date

def Duration.written (minutes : Int) : Text :=
  let days := minutes.fdiv 1440
  let seconds := minutes.fmod 1440 * 60
  let parts :=
    (if days = 0 then [] else ["days=".toList ++ Text.ofInt days]) ++
      (if seconds = 0 then [] else ["seconds=".toList ++ Text.ofInt seconds])
  "datetime.timedelta(".toList ++
    (if parts.isEmpty then ['0'] else Text.join ", ".toList parts) ++ [')']

structure DateTime where
  date : Date
  hour : Nat
  minute : Nat
  second : Nat
  microsecond : Nat
  /-- The minutes by which the clock is ahead of universal time, if that is known. -/
  offset : Option Int
deriving DecidableEq, Repr

namespace DateTime

def ofNumbers (year month day hour minute second microsecond : Nat) (offset : Option Int) :
    Except DateError DateTime :=
  match offset.filter fun m => 1440 ≤ m.natAbs with
  | some m => .error (.offset m)
  | none => do
    let date ← Date.ofNumbers year month day
    if 23 < hour then .error .hour
    else if 59 < minute then .error .minute
    else if 59 < second then .error .second
    else .ok ⟨date, hour, minute, second, microsecond, offset⟩

def offsetText (minutes : Int) : Text :=
  (if minutes < 0 then '-' else '+') ::
    (Text.ofNatPadded 2 (minutes.natAbs / 60) ++ ':' :: Text.ofNatPadded 2 (minutes.natAbs % 60))

def text (d : DateTime) : Text :=
  d.date.text ++ ' ' :: Text.ofNatPadded 2 d.hour ++ ':' :: Text.ofNatPadded 2 d.minute ++
    ':' :: Text.ofNatPadded 2 d.second ++
    (if d.microsecond = 0 then [] else '.' :: Text.ofNatPadded 6 d.microsecond) ++
    (match d.offset with
      | some m => offsetText m
      | none => [])

def written (d : DateTime) : Text :=
  let seconds :=
    if d.microsecond ≠ 0 then [d.second, d.microsecond]
    else if d.second ≠ 0 then [d.second] else []
  let numbers := [d.date.year, d.date.month, d.date.day, d.hour, d.minute] ++ seconds
  let zone := match d.offset with
    | some 0 => ["tzinfo=datetime.timezone.utc".toList]
    | some m => ["tzinfo=datetime.timezone(".toList ++ Duration.written m ++ [')']]
    | none => []
  "datetime.datetime(".toList ++ Text.join ", ".toList (numbers.map Text.ofNat ++ zone) ++ [')']

end DateTime

def DateError.message : DateError → Text
  | .year n => "year ".toList ++ Text.ofNat n ++ " is out of range".toList
  | .month => "month must be in 1..12".toList
  | .day => "day is out of range for month".toList
  | .hour => "hour must be in 0..23".toList
  | .minute => "minute must be in 0..59".toList
  | .second => "second must be in 0..59".toList
  | .offset minutes =>
    ("offset must be a timedelta strictly between -timedelta(hours=24) and " ++
      "timedelta(hours=24), not ").toList ++ Duration.written minutes ++ ['.']

end ChangePairs
