import ChangePairs.Calendar
import ChangePairs.Yaml.Stream

/-!
Dates and points in time as a YAML document spells them: a date alone, or with a time of day and
perhaps a distance from universal time.
-/

namespace ChangePairs
namespace Yaml

structure ClockText where
  hour : Nat
  minute : Nat
  second : Nat
  microsecond : Nat
  /-- The minutes by which the clock is ahead of universal time, if a zone is given. -/
  offset : Option Int
deriving DecidableEq, Repr

structure Timestamp where
  year : Nat
  month : Nat
  day : Nat
  /-- Whether the month and the day have two digits each. -/
  wide : Bool
  clock : Option ClockText
deriving DecidableEq, Repr

def decimalValue (digits : Text) : Nat :=
  digits.foldl (fun n c => 10 * n + (c.toNat - '0'.toNat)) 0

namespace Timestamp

/-- A run of digits at the start of a text, of `least` to `most` digits, and what follows it. -/
def digits? (least most : Nat) (t : Text) : Option (Text × Text) :=
  let run := (t.take most).takeWhile Char.isDigit
  if run.length < least then none else some (run, t.drop run.length)

def numberAfter? (mark : Char) (least : Nat) (t : Text) : Option (Text × Text) :=
  match t with
  | c :: rest => if c = mark then digits? least 2 rest else none
  | [] => none

/-- The zone at the end of a timestamp: nothing, or a distance from universal time. -/
def zone? (t : Text) : Option (Option Int) :=
  if t.isEmpty then some none
  else
    match t.dropWhile isSpaceOrTab with
    | ['Z'] => some (some 0)
    | sign :: rest =>
      if sign = '+' || sign = '-' then do
        let (hours, rest) ← digits? 1 2 rest
        let (minutes, rest) ← if rest.isEmpty then some ([], []) else numberAfter? ':' 2 rest
        let total : Int := decimalValue hours * 60 + decimalValue minutes
        if rest.isEmpty then some (some (if sign = '-' then -total else total)) else none
      else none
    | [] => none

/-- The microseconds that the digits after a point stand for.  Those after the sixth are left
out. -/
def microseconds (digits : Text) : Nat :=
  let kept := digits.take 6
  decimalValue (kept ++ List.replicate (6 - kept.length) '0')

def clock? (t : Text) : Option ClockText := do
  let (hour, rest) ← digits? 1 2 t
  let (minute, rest) ← numberAfter? ':' 2 rest
  let (second, rest) ← numberAfter? ':' 2 rest
  let (fraction, rest) := match rest with
    | '.' :: rest => rest.span Char.isDigit
    | _ => ([], rest)
  return ⟨decimalValue hour, decimalValue minute, decimalValue second, microseconds fraction,
    ← zone? rest⟩

/-- What stands between a date and a time of day: one letter, or blanks. -/
def afterGap? (t : Text) : Option Text :=
  match t with
  | 'T' :: rest | 't' :: rest => some rest
  | c :: _ => if isSpaceOrTab c then some (t.dropWhile isSpaceOrTab) else none
  | [] => none

/-- The timestamp that a text spells.  A line feed at its end does not count. -/
def ofText? (t : Text) : Option Timestamp := do
  let (year, rest) ← digits? 4 4 (dropLineFeed t)
  let (month, rest) ← numberAfter? '-' 1 rest
  let (day, rest) ← numberAfter? '-' 1 rest
  let clock ← if rest.isEmpty then some none else (clock? (← afterGap? rest)).map some
  return ⟨decimalValue year, decimalValue month, decimalValue day,
    month.length = 2 && day.length = 2, clock⟩

/-- Whether a plain scalar is taken for the timestamp.  A date alone is written with all its
digits. -/
def isPlain (t : Timestamp) : Bool := t.wide || t.clock.isSome

end Timestamp
end Yaml
end ChangePairs
