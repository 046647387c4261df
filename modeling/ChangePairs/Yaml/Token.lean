import ChangePairs.Yaml.Fault
import ChangePairs.Yaml.Stream

/-!
The tokens of a YAML document.  Those that a layout of lines and columns stands for are written
out: a collection in block style is opened and closed like one in brackets, and every key is
announced.
-/

namespace ChangePairs
namespace Yaml

inductive TagName where
  | verbatim (t : Text)
  /-- A handle that a directive explains, and what follows it. -/
  | shorthand (handle suffix : Text)
deriving DecidableEq, Repr

inductive Directive where
  /-- The major version of the language. -/
  | version (major : Nat)
  | tagPrefix (handle uri : Text)
  | unknown
deriving DecidableEq, Repr

inductive Token where
  | directive (d : Directive)
  | documentStart
  | documentEnd
  | blockListStart
  | blockMappingStart
  | blockEnd
  | flowListStart
  | flowListEnd
  | flowMappingStart
  | flowMappingEnd
  | blockItem
  | flowItem
  | key
  | value
  | alias (name : Text)
  | anchor (name : Text)
  | tag (t : TagName)
  | scalar (t : Text) (plain : Bool)
  /-- Nothing can be read from here on. -/
  | fault (f : Fault)
deriving DecidableEq, Repr

/-! ## Names and tags -/

/-- The name of an anchor after its indicator, and the rest. -/
def anchorName? (s : Stream) : Option (Text × Stream) :=
  let (name, rest) := s.span fun c => isNameChar c.char
  let ends := Stream.atBlank rest || rest.head?.any fun c => "?:,]\x7d%@\x60".toList.contains c.char
  if !name.isEmpty && ends then some (Stream.text name, rest) else none

/-- Characters that stand for themselves in the name of a tag. -/
def isTagChar (c : Char) : Bool := c.isAlphanum || "-;/?:@&=+$,_.!~*'()[]".toList.contains c

/-- The octets of the name of a tag, and what follows it.  Two hexadecimal digits after a percent
sign are an octet. -/
def tagOctets? : Text → Option (Octets × Text)
  | [] => some ([], [])
  | '%' :: a :: b :: rest => do
    let high ← hexValue? a
    let low ← hexValue? b
    let (octets, after) ← tagOctets? rest
    some ((16 * high + low) :: octets, after)
  | c :: rest =>
    if c = '%' then none
    else if isTagChar c then (tagOctets? rest).map fun (octets, after) => (c.toNat :: octets, after)
    else some ([], c :: rest)

/-- The name of a tag, which may not be empty, and what follows it. -/
def tagText? (t : Text) : Option (Text × Text) := do
  let (octets, after) ← tagOctets? t
  if octets.isEmpty then none else some ((← (Octets.decodeStrict octets).toOption), after)

/-- The handle of a tag after its first exclamation mark, and what follows it. -/
def tagHandle? (t : Text) : Option (Text × Text) :=
  match t.span isNameChar with
  | (name, '!' :: rest) => some ('!' :: name ++ ['!'], rest)
  | _ => none

/-- The tag in a word that begins after an exclamation mark. -/
def TagName.ofWord? (word : Text) : Option TagName :=
  match word with
  | [] => some (.verbatim ['!'])
  | '<' :: inner =>
    match tagText? inner with
    | some (name, ['>']) => some (.verbatim name)
    | _ => none
  | _ => do
    let (handle, rest) ← if word.contains '!' then tagHandle? word else some (['!'], word)
    match ← tagText? rest with
    | (suffix, []) => some (.shorthand handle suffix)
    | _ => none

/-! ## Directives -/

/-- The text after spaces, of which there has to be one. -/
def afterSpaces? : Text → Option Text
  | ' ' :: rest => some (rest.dropWhile (· = ' '))
  | _ => none

/-- Whether nothing but spaces and a comment is left of a line. -/
def isLineRest (t : Text) : Bool :=
  match t with
  | [] => true
  | c :: _ => c = ' ' && (t.dropWhile (· = ' ')).head?.all (· = '#')

/-- A version of the language, of which the major number counts, and what follows it. -/
def version? (t : Text) : Option (Directive × Text) :=
  match t.span Char.isDigit with
  | (d :: major, '.' :: rest) =>
    match rest.span Char.isDigit with
    | (_ :: _, after) =>
      some (.version (numberOfDigits ((d :: major).map fun c => c.toNat - '0'.toNat)), after)
    | _ => none
  | _ => none

/-- A tag handle and what it stands for, and what follows them. -/
def tagPrefix? (t : Text) : Option (Directive × Text) :=
  match t with
  | '!' :: rest => do
    let (handle, rest) ← match rest with
      | ' ' :: _ => some (['!'], rest)
      | _ => tagHandle? rest
    let (uri, after) ← tagText? (← afterSpaces? rest)
    some (.tagPrefix handle uri, after)
  | _ => none

def Directive.ofLine? (t : Text) : Option Directive :=
  let (name, rest) := t.span isNameChar
  if name.isEmpty || !(rest.isEmpty || rest.head? = some ' ') then none
  else
    let arguments := rest.dropWhile (· = ' ')
    let found :=
      if name = "YAML".toList then version? arguments
      else if name = "TAG".toList then tagPrefix? arguments
      else some (.unknown, [])
    match found with
    | some (d, after) => if isLineRest after then some d else none
    | none => none

end Yaml
end ChangePairs
