import ChangePairs.Number.Integer
import ChangePairs.Yaml.Timestamp

/-!
The kinds of nodes.  A tag tells the kind of a node, and without one a plain scalar is of the kind
that its text is spelled like.
-/

namespace ChangePairs
namespace Yaml

inductive Kind where
  | null
  | truth
  | integer
  | double
  | text
  | octets
  | timestamp
  /-- The key whose value is merged into its mapping. -/
  | merge
  /-- The key of a default value. -/
  | default
  | list
  /-- A list of pairs. -/
  | pairs
  | set
  | mapping
  | unknown
deriving DecidableEq, Repr

def Kind.isCollection : Kind → Bool
  | .list | .pairs | .set | .mapping => true
  | _ => false

/-! ## Kinds by spelling -/

def isOneOf (words : List String) (t : Text) : Bool := words.any fun w => w.toList = t

def isNullName : Text → Bool := isOneOf ["", "~", "null", "Null", "NULL"]

def isTruthName : Text → Bool :=
  isOneOf ["yes", "Yes", "YES", "no", "No", "NO", "true", "True", "TRUE", "false", "False", "FALSE",
    "on", "On", "ON", "off", "Off", "OFF"]

def isDigitOrLine (c : Char) : Bool := c.isDigit || c = '_'

def isSixtieth : Text → Bool
  | [d] => d.isDigit
  | [c, d] => '0' ≤ c && c ≤ '5' && d.isDigit
  | _ => false

/-- Whether a text is an integer without a sign: in binary after `0b`, hexadecimal after `0x`,
octal after another zero, and otherwise decimal or, with colons, in base sixty. -/
def isNaturalName (t : Text) : Bool :=
  match t with
  | '0' :: 'b' :: digits => !digits.isEmpty && digits.all fun c => c = '0' || c = '1' || c = '_'
  | '0' :: 'x' :: digits => !digits.isEmpty && digits.all fun c => (hexValue? c).isSome || c = '_'
  | '0' :: digits => digits.all fun c => ('0' ≤ c && c ≤ '7') || c = '_'
  | c :: _ =>
    c.isDigit &&
      match Text.fields ':' t with
      | first :: places => first.all isDigitOrLine && places.all isSixtieth
      | [] => false
  | [] => false

def isIntegerName (t : Text) : Bool := isNaturalName (splitSign t).2

def isExponent : Text → Bool
  | [] => true
  | e :: sign :: d :: more =>
    (e = 'e' || e = 'E') && (sign = '+' || sign = '-') && (d :: more).all Char.isDigit
  | _ => false

/-- Whether a text is a double: a digit, others and a point, with a sign or without and in base
sixty if it has colons; a point and a digit without a sign; or the name of an infinity or of what
is no number. -/
def isDoubleName (t : Text) : Bool :=
  let body := (splitSign t).2
  let signed := body.length ≠ t.length
  if isOneOf [".inf", ".Inf", ".INF"] body then true
  else if isOneOf [".nan", ".NaN", ".NAN"] t then true
  else
    match body.span (· ≠ '.') with
    | ([], '.' :: d :: more) =>
      !signed && d.isDigit && isExponent (more.dropWhile isDigitOrLine)
    | (c :: whole, '.' :: after) =>
      let exponent := after.dropWhile isDigitOrLine
      c.isDigit &&
        match Text.fields ':' (c :: whole) with
        | [digits] => digits.all isDigitOrLine && isExponent exponent
        | first :: places =>
          first.all isDigitOrLine && places.all isSixtieth && exponent.isEmpty
        | [] => false
    | _ => false

def Kind.ofSpelling (t : Text) : Kind :=
  if isTruthName t then .truth
  else if isDoubleName t then .double
  else if isIntegerName t then .integer
  else if t = "<<".toList then .merge
  else if isNullName t then .null
  else if (Timestamp.ofText? t).any Timestamp.isPlain then .timestamp
  else if t = "=".toList then .default
  else .text

/-- The kind that a text is spelled like.  A line feed after something does not count. -/
def Kind.ofText (t : Text) : Kind := if t = ['\n'] then .text else ofSpelling (dropLineFeed t)

/-! ## Kinds by tag -/

def Kind.tags : List (String × Kind) :=
  [("null", .null), ("bool", .truth), ("int", .integer), ("float", .double), ("str", .text),
   ("binary", .octets), ("timestamp", .timestamp), ("merge", .merge), ("value", .default),
   ("seq", .list), ("omap", .pairs), ("pairs", .pairs), ("set", .set), ("map", .mapping)]

def Kind.ofTag (t : Text) : Kind :=
  match tags.find? fun entry => ("tag:yaml.org,2002:" ++ entry.1).toList = t with
  | some (_, kind) => kind
  | none => .unknown

def isNonSpecific (t : Text) : Bool := t = ['!']

def Kind.ofScalar (tag : Option Text) (t : Text) (plain : Bool) : Kind :=
  match tag with
  | none => if plain then ofText t else .text
  | some tag => if isNonSpecific tag then ofText t else ofTag tag

/-- The kind of a list or a mapping, which is `own` unless a tag says something else. -/
def Kind.ofCollection (own : Kind) : Option Text → Kind
  | none => own
  | some tag => if isNonSpecific tag then own else ofTag tag

end Yaml
end ChangePairs
