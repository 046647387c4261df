import ChangePairs.Settings.Scalar
import ChangePairs.Text.Base64
import ChangePairs.Text.LowerCase
import ChangePairs.Yaml.Fault
import ChangePairs.Yaml.Kind

/-!
What a scalar of each kind stands for.  In a number underscores do not count.  Integers may be in
base two, eight, sixteen or, with colons between their places, sixty.
-/

namespace ChangePairs
namespace Yaml

def baseLetter (base : Nat) : Char := if base = 2 then 'b' else if base = 8 then 'o' else 'x'

/-- The digits of a number, without the zero and the letter that may announce them. -/
def digitsInBase (base : Nat) (t : Text) : Text :=
  match t with
  | '0' :: c :: digits => if c.toLower = baseLetter base then digits else t
  | _ => t

def digitInBase? (base : Nat) (c : Char) : Option Nat :=
  ((Text.digitValue? c).or (hexValue? c)).filter (· < base)

def inBase (base : Nat) (t : Text) : Except BadValue Int :=
  let (negative, body) := splitSign (trimNumber t)
  match (digitsInBase base body).mapM (digitInBase? base) with
  | some (d :: more) =>
    let n : Nat := (d :: more).foldl (fun n d => base * n + d) 0
    .ok (if negative then -n else n)
  | _ => .error (.notInBase base t)

def inBaseSixty (places : List Int) : Int := places.foldl (fun n place => 60 * n + place) 0

def readInt (t : Text) : Except BadValue Int := (readInteger t).mapError .integer

def readUnsigned (t : Text) : Except BadValue Int :=
  match t with
  | [] => .error .noCharacters
  | ['0'] => .ok 0
  | '0' :: 'b' :: digits => inBase 2 digits
  | '0' :: 'x' :: digits => inBase 16 digits
  | '0' :: _ => inBase 8 t
  | _ =>
    if t.contains ':' then ((Text.fields ':' t).mapM readInt).map inBaseSixty else readInt t

def integerOf (t : Text) : Except BadValue Int :=
  match t.filter (· ≠ '_') with
  | [] => .error .noCharacters
  | body =>
    let (negative, unsigned) := splitSign body
    (readUnsigned unsigned).map fun n => if negative then -n else n

/-- The double of places in base sixty, the last one first.  `base` is the value of the next
place, which has to be in the range of doubles. -/
def inBaseSixtyDouble (base : Nat) (sum : Float) : List Float → Except BadValue Float
  | [] => .ok sum
  | place :: rest =>
    match nearestDouble? base with
    | some b => inBaseSixtyDouble (base * 60) (sum + place * b) rest
    | none => .error .tooLarge

def readUnsignedDouble (t : Text) : Except BadValue Float :=
  if t = ".inf".toList then .ok (1.0 / 0.0)
  else if t = ".nan".toList then .ok (0.0 / 0.0)
  else if t.contains ':' then do
    let places ← (Text.fields ':' t).mapM fun place => (readDouble place).mapError .double
    inBaseSixtyDouble 1 0.0 places.reverse
  else (readDouble t).mapError .double

def doubleOf (t : Text) : Except BadValue Float :=
  match Text.lower (t.filter (· ≠ '_')) with
  | [] => .error .noCharacters
  | body =>
    let (negative, unsigned) := splitSign body
    (readUnsignedDouble unsigned).map fun x => if negative then -x else x

def isNaNName (t : Text) : Bool :=
  (splitSign (Text.lower (t.filter (· ≠ '_')))).2 = ".nan".toList

def truthOf (t : Text) : Except BadValue Bool :=
  let name := Text.lower t
  if isOneOf ["yes", "true", "on"] name then .ok true
  else if isOneOf ["no", "false", "off"] name then .ok false
  else .error (.notTruth name)

def timestampOf (t : Text) : Except BadValue Scalar :=
  match Timestamp.ofText? t with
  | none => .error .notTimestamp
  | some s =>
    match s.clock with
    | none => ((Date.ofNumbers s.year s.month s.day).map .date).mapError .date
    | some c =>
      ((DateTime.ofNumbers s.year s.month s.day c.hour c.minute c.second c.microsecond
        c.offset).map .dateTime).mapError .date

def octetsOf (t : Text) : Except Fault Octets :=
  if t.all fun c => c.toNat < 0x80 then
    match Base64.read t with
    | some octets => .ok octets
    | none => .error .malformed
  else .error .malformed

def Kind.read (t : Text) : Kind → Except Fault Scalar
  | .null => .ok .null
  | .text => .ok (.text t)
  | .truth => ((truthOf t).map .bool).mapError .failed
  | .integer => ((integerOf t).map .int).mapError .failed
  | .double => ((doubleOf t).map .float).mapError .failed
  | .octets => (octetsOf t).map .octets
  | .timestamp => (timestampOf t).mapError .failed
  | .merge | .default | .list | .pairs | .set | .mapping | .unknown => .error .malformed

end Yaml
end ChangePairs
