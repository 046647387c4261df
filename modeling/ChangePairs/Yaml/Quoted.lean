import ChangePairs.Yaml.Fault
import ChangePairs.Yaml.Fold

/-!
Scalars in quotes.  In single quotes a quote is written twice and nothing else is special.  In
double quotes a backslash begins an escape, and before a line end it joins two lines.  A document
must not end, nor another one start, inside of quotes.
-/

namespace ChangePairs
namespace Yaml

def consPiece (p : Piece) (found : Except Fault (List Piece × Stream)) :
    Except Fault (List Piece × Stream) :=
  found.map fun (pieces, rest) => (p :: pieces, rest)

def Piece.ofChar (c : Char) : Piece :=
  if isLineEnd c then .lineEnd c else if isSpaceOrTab c then .blank c else .char c

def endsDocument (c : Char) (rest : Stream) : Bool := isLineEnd c && rest.atDocumentMark

/-- The pieces after an opening single quote, and the rest after the closing one. -/
def singleQuoted : Stream → Except Fault (List Piece × Stream)
  | [] => .error .malformed
  | c :: rest =>
    if c.char = '\'' then
      match rest with
      | d :: after =>
        if d.char = '\'' then consPiece (.char '\'') (singleQuoted after) else .ok ([], d :: after)
      | [] => .ok ([], [])
    else if endsDocument c.char rest then .error .malformed
    else consPiece (.ofChar c.char) (singleQuoted rest)

def escaped? (c : Char) : Option Char :=
  match c with
  | '0' => some '\x00'
  | 'a' => some '\x07'
  | 'b' => some '\x08'
  | 't' | '\t' => some '\t'
  | 'n' => some '\n'
  | 'v' => some '\x0b'
  | 'f' => some '\x0c'
  | 'r' => some '\r'
  | 'e' => some '\x1b'
  | ' ' | '"' | '\\' | '/' => some c
  | 'N' => some '\u0085'
  | '_' => some '\u00a0'
  | 'L' => some '\u2028'
  | 'P' => some '\u2029'
  | _ => none

def codeWidth? : Char → Option Nat
  | 'x' => some 2
  | 'u' => some 4
  | 'U' => some 8
  | _ => none

/-- The code point whose hexadecimal digits follow a letter that announces them, and the number of
characters that the letter and they are. -/
def codePoint? (after : Stream) : Option (Nat × Nat) :=
  match after with
  | [] => none
  | letter :: more => do
    let width ← codeWidth? letter.char
    let values ← (Stream.text (more.take width)).mapM hexValue?
    if values.length = width then
      some (values.foldl (fun n d => 16 * n + d) 0, width + 1)
    else none

def joinSurrogates (high low : Nat) : Nat := 0x10000 + (high - 0xD800) * 0x400 + (low - 0xDC00)

/-- The second of a pair of surrogates that an escape after the first one stands for, and the
number of characters of the escape. -/
def lowSurrogate? (after : Stream) : Option (Nat × Nat) :=
  match after with
  | [] => none
  | c :: rest =>
    if c.char = '\\' then do
      let (low, taken) ← codePoint? rest
      if 0xDC00 ≤ low ∧ low < 0xE000 then some (low, taken + 1) else none
    else none

/-- The character of a code point, and the number of characters that are taken if its own escape
takes `taken` and `after` follows.  A pair of surrogates stands for one character, and one alone
for the replacement character. -/
def characterOf (n taken : Nat) (after : Stream) : Except Fault (Piece × Nat) :=
  if n.isValidChar then .ok (.char (Char.ofNat n), taken)
  else if 0x110000 ≤ n then .error (.failed (.codePoint n))
  else
    match lowSurrogate? after with
    | some (low, more) =>
      if n < 0xDC00 then .ok (.char (Char.ofNat (joinSurrogates n low)), taken + more)
      else .ok (.char Octets.replacement, taken)
    | none => .ok (.char Octets.replacement, taken)

/-- What a backslash and the text after it stand for, and the number of characters that it takes
after the backslash. -/
def escape (after : Stream) : Except Fault (Piece × Nat) :=
  match after with
  | [] => .error .malformed
  | letter :: more =>
    match codeWidth? letter.char, escaped? letter.char with
    | some _, _ =>
      match codePoint? after with
      | some (n, taken) => characterOf n taken (after.drop taken)
      | none => .error .malformed
    | none, some c => .ok (.char c, 1)
    | none, none =>
      if isLineEnd letter.char then
        if Stream.atDocumentMark more then .error .malformed else .ok (.joint, 1)
      else .error .malformed

/-- The pieces after an opening double quote, and the rest after the closing one.  The next
`taken` characters belong to an escape that is read. -/
def doubleQuotedAfter (taken : Nat) : Stream → Except Fault (List Piece × Stream)
  | [] => .error .malformed
  | c :: rest =>
    match taken with
    | n + 1 => doubleQuotedAfter n rest
    | 0 =>
      if c.char = '"' then .ok ([], rest)
      else if c.char = '\\' then
        match escape rest with
        | .error f => .error f
        | .ok (piece, taken) => consPiece piece (doubleQuotedAfter taken rest)
      else if endsDocument c.char rest then .error .malformed
      else consPiece (.ofChar c.char) (doubleQuotedAfter 0 rest)

def doubleQuoted (s : Stream) : Except Fault (List Piece × Stream) := doubleQuotedAfter 0 s

end Yaml
end ChangePairs
