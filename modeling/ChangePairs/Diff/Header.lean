import ChangePairs.Diff.Hunk
import ChangePairs.Number.Integer
import ChangePairs.Text.Quoted

/-!
Hunk headers.  A header reads `@@ -A,B +C,D @@` and may go on with any text; a count that is left
out is one.  Reading takes the two words after the minus and the plus sign apart first and looks
at their digits afterwards, so a header whose shape is right is told about its first bad number,
and only a header whose four numbers are right about a range that starts before the first line.
-/

namespace ChangePairs
namespace Header

def opens (line : Text) : Bool :=
  match line with
  | '@' :: '@' :: c :: _ => Text.isBlank c
  | _ => false

/-- The header of a line that opens a hunk: the line without carriage returns and line feeds at
its end. -/
def ofLine (line : Text) : Text := Text.dropEnd (fun c => c = '\r' || c = '\n') line

/-- Why a header is rejected. -/
inductive Fault where
  | malformed
  | nonNumeric (range : Text)
  | badStart (side : Side)
deriving DecidableEq, Repr

def Fault.message (header : Text) : Fault → Text
  | .malformed => "Malformed hunk header ".toList ++ Text.quoted header
  | .nonNumeric range =>
    "Non-numeric range ".toList ++ Text.quoted range ++ " in hunk header ".toList ++
      Text.quoted header
  | .badStart side =>
    "Invalid ".toList ++ side.rangeName ++ " start line in hunk header ".toList ++
      Text.quoted header

def word (t : Text) : Text × Text :=
  (t.takeWhile fun c => !Text.isBlank c, t.dropWhile fun c => !Text.isBlank c)

/-- The two range words of a header, the one after the minus and the one after the plus sign. -/
def words? (header : Text) : Option (Text × Text) := do
  let rest ← Text.after? "@@ -".toList header
  let (old, rest) := word rest
  let rest ← Text.after? " +".toList rest
  let (new, rest) := word rest
  let _ ← Text.after? " @@".toList rest
  if old.isEmpty || new.isEmpty then none else some (old, new)

/-- The start and the count of a range word.  The first comma after the first character parts
them; without one, or with nothing behind it, the whole word is the start. -/
def splitRange (range : Text) : Text × Option Text :=
  match range with
  | [] => ([], none)
  | c :: rest =>
    match rest.dropWhile (· ≠ ',') with
    | ',' :: d :: count => (c :: rest.takeWhile (· ≠ ','), some (d :: count))
    | _ => (range, none)

/-- Reading a header ends in a rejection, or stops at a number that is too long to be read. -/
abbrev Reading (α : Type) := ExceptT Fault (Except DigitLimitExceeded) α

/-- A number of a range: ASCII digits and nothing else. -/
def readNumber (digits : Text) : Reading Nat :=
  if digits.isEmpty || !digits.all Char.isDigit then throw (.nonNumeric digits)
  else if digitLimit < digits.length then ExceptT.lift (.error (.reading digits.length))
  else return numberOfDigits (digits.map fun c => c.toNat - '0'.toNat)

/-- A range with its start and, unless it is one line, its count. -/
def readRange (range : Text) : Reading LineRange := do
  let (start, count?) := splitRange range
  let start ← readNumber start
  let count ← match count? with
    | some count => readNumber count
    | none => pure 1
  return ⟨start, count⟩

/-- A range that holds lines starts at the first line or later. -/
def checkStart (side : Side) (r : LineRange) : Reading Unit :=
  if 0 < r.count ∧ r.start < 1 then throw (.badStart side) else pure ()

def read (header : Text) : Reading (LineRange × LineRange) :=
  match words? header with
  | none => throw .malformed
  | some (old, new) => do
    let old ← readRange old
    let new ← readRange new
    checkStart .before old
    checkStart .after new
    return (old, new)

end Header
end ChangePairs
