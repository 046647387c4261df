import ChangePairs.Yaml.Reader

/-!
What can be wrong with a YAML document.  Most of it makes the document malformed.  A scalar may
also be spelled, or be tagged, as a number, a truth value or a date and turn out to be none, which
is told apart from that.
-/

namespace ChangePairs
namespace Yaml

inductive BadValue where
  | integer (e : IntegerError)
  /-- Digits that do not belong to a base other than ten. -/
  | notInBase (base : Nat) (t : Text)
  | double (e : DoubleError)
  /-- A number in base sixty with too many places. -/
  | tooLarge
  /-- A number without a single character. -/
  | noCharacters
  | notTruth (t : Text)
  | notTimestamp
  | date (e : DateError)
  /-- A code point that no character has. -/
  | codePoint (n : Nat)
deriving DecidableEq, Repr

def BadValue.message : BadValue → Text
  | .integer e => e.message
  | .notInBase base t =>
    "invalid literal for int() with base ".toList ++ Text.ofNat base ++ ": ".toList ++
      (Text.quoted t).take 200
  | .double e => e.message
  | .tooLarge => "int too large to convert to float".toList
  | .noCharacters => "string index out of range".toList
  | .notTruth t => Text.quoted t
  | .notTimestamp => "'NoneType' object has no attribute 'groupdict'".toList
  | .date e => e.message
  | .codePoint n =>
    if n < 0x80000000 then "chr() arg not in range(0x110000)".toList
    else "Python int too large to convert to C int".toList

abbrev Fault := Refusal BadValue

end Yaml
end ChangePairs
