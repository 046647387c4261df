import ChangePairs.Yaml.BlockText
import ChangePairs.Yaml.Plain
import ChangePairs.Yaml.Quoted
import ChangePairs.Yaml.Token

/-!
The tokens of a document by its layout.  Outside of brackets a collection is as long as its lines
are indented like the first one.  A key is known by the colon after it only, so every token that
may be a key is kept in mind until a colon follows; it has to be on one line and not longer than
`keyLimit`.
-/

namespace ChangePairs
namespace Yaml

def keyLimit : Nat := 1024

structure KeyStart where
  place : Spot
  /-- The number of tokens before it. -/
  tokens : Nat
  /-- The number of brackets that are open around it. -/
  depth : Nat
  /-- Whether nothing but a key may stand there. -/
  required : Bool

namespace KeyStart

def isOver (k : KeyStart) (here : Spot) : Bool :=
  k.place.line ≠ here.line || keyLimit < here.index - k.place.index

end KeyStart

structure Layout where
  rest : Stream
  /-- The tokens so far, the last one first. -/
  tokens : List Token
  /-- The number of brackets that are open. -/
  depth : Nat
  /-- The columns of the block collections that are open, the innermost first. -/
  columns : List Nat
  /-- Whether a key may begin at the next token. -/
  keyAllowed : Bool
  keys : List KeyStart

namespace Layout

def start (s : Stream) : Layout := ⟨s, [], 0, [], true, []⟩

def emit (l : Layout) (t : Token) (rest : Stream) : Layout :=
  { l with tokens := t :: l.tokens, rest }

/-! ## Keys -/

/-- Forgets keys of which `p` holds, unless one of them is required. -/
def forgetKeys (l : Layout) (p : KeyStart → Bool) : Except Fault Layout :=
  if l.keys.any fun k => p k && k.required then .error .malformed
  else .ok { l with keys := l.keys.filter fun k => !p k }

def forgetKey (l : Layout) : Except Fault Layout := l.forgetKeys fun k => k.depth = l.depth

def noteKey (l : Layout) (here : Spot) : Except Fault Layout :=
  if l.keyAllowed then do
    let l ← l.forgetKey
    let required := l.depth = 0 && l.columns.head? = some here.column
    return { l with keys := ⟨here, l.tokens.length, l.depth, required⟩ :: l.keys }
  else .ok l

/-- Puts a token before those that are not among the first `n`. -/
def insertAt (n : Nat) (t : Token) (tokens : List Token) : List Token :=
  let later := tokens.length - n
  tokens.take later ++ t :: tokens.drop later

/-! ## Block collections -/

/-- Closes the block collections that are indented deeper than `column`. -/
def closeTo (column : Nat) (l : Layout) : Layout :=
  let closed := (l.columns.takeWhile fun c => column < c).length
  { l with
    columns := l.columns.drop closed
    tokens := List.replicate closed .blockEnd ++ l.tokens }

def closeAll (l : Layout) : Layout :=
  if l.depth = 0 then
    { l with columns := [], tokens := l.columns.map (fun _ => .blockEnd) ++ l.tokens }
  else l

def opens (l : Layout) (column : Nat) : Bool := l.columns.head?.all fun c => c < column

def openAt (l : Layout) (column : Nat) (t : Token) : Layout :=
  if l.opens column then { l with columns := column :: l.columns, tokens := t :: l.tokens } else l

/-! ## Tokens -/

def item (l : Layout) (here : Spot) (after : Stream) : Except Fault Layout :=
  if l.depth ≠ 0 || !l.keyAllowed then .error .malformed
  else do
    let l ← (l.openAt here.column .blockListStart).forgetKey
    return { l with keyAllowed := true }.emit .blockItem after

def key (l : Layout) (here : Spot) (after : Stream) : Except Fault Layout :=
  if l.depth = 0 && !l.keyAllowed then .error .malformed
  else do
    let l := if l.depth = 0 then l.openAt here.column .blockMappingStart else l
    let l ← l.forgetKey
    return { l with keyAllowed := l.depth = 0 }.emit .key after

/-- A colon before a value.  It makes a key of the place that is kept in mind, and opens a block
mapping there. -/
def value (l : Layout) (here : Spot) (after : Stream) : Except Fault Layout :=
  match l.keys.find? fun k => k.depth = l.depth with
  | some k =>
    let column := k.place.column
    let l := { l with
      keys := l.keys.filter fun other => other.depth ≠ k.depth
      keyAllowed := false
      tokens := insertAt k.tokens .key l.tokens }
    let l :=
      if l.depth = 0 && l.opens column then
        { l with
          columns := column :: l.columns
          tokens := insertAt k.tokens .blockMappingStart l.tokens }
      else l
    .ok (l.emit .value after)
  | none =>
    if l.depth ≠ 0 then .ok ({ l with keyAllowed := false }.emit .value after)
    else if !l.keyAllowed then .error .malformed
    else .ok ({ l.openAt here.column .blockMappingStart with keyAllowed := true }.emit .value after)

def openBracket (l : Layout) (t : Token) (here : Spot) (after : Stream) : Except Fault Layout := do
  let l ← l.noteKey here
  return { l with depth := l.depth + 1, keyAllowed := true }.emit t after

def closeBracket (l : Layout) (t : Token) (after : Stream) : Except Fault Layout :=
  match l.depth with
  | 0 => .error .malformed
  | depth + 1 => do
    let l ← l.forgetKey
    return { l with depth, keyAllowed := false }.emit t after

def comma (l : Layout) (after : Stream) : Except Fault Layout := do
  let l ← l.forgetKey
  return { l with keyAllowed := true }.emit .flowItem after

def documentMark (l : Layout) (t : Token) (after : Stream) : Except Fault Layout := do
  let l ← l.closeAll.forgetKey
  return { l with keyAllowed := false }.emit t (after.drop 2)

def directive (l : Layout) (after : Stream) : Except Fault Layout := do
  let l ← l.closeAll.forgetKey
  let (line, rest) := Stream.splitLine after
  match Directive.ofLine? (Stream.text line) with
  | some d => return { l with keyAllowed := false }.emit (.directive d) (rest.drop 1)
  | none => throw .malformed

def content (l : Layout) (here : Spot) (t : Token) (rest : Stream) : Except Fault Layout := do
  let l ← l.noteKey here
  return { l with keyAllowed := false }.emit t rest

def named (l : Layout) (here : Spot) (make : Text → Token) (after : Stream) :
    Except Fault Layout :=
  match anchorName? after with
  | some (name, rest) => l.content here (make name) rest
  | none => .error .malformed

def tag (l : Layout) (here : Spot) (after : Stream) : Except Fault Layout :=
  let (word, rest) := after.span fun c => !(c.char = ' ' || isLineEnd c.char)
  match TagName.ofWord? (Stream.text word) with
  | some t => l.content here (.tag t) rest
  | none => .error .malformed

def quoted (l : Layout) (here : Spot) (found : Except Fault (List Piece × Stream)) :
    Except Fault Layout := do
  let (pieces, rest) ← found
  l.content here (.scalar (Piece.fold pieces) false) rest

/-- A scalar after a bar or an angle.  A key may follow it, as it ends with its line. -/
def blockScalar (l : Layout) (folded : Bool) (after : Stream) : Except Fault Layout := do
  let l ← l.forgetKey
  let least := match l.columns with
    | [] => 1
    | c :: _ => c + 1
  match blockText? folded least after with
  | some (t, rest) => return { l with keyAllowed := true }.emit (.scalar t false) rest
  | none => throw .malformed

def plainScalar (l : Layout) (here : Spot) (s : Stream) : Except Fault Layout := do
  let l ← l.noteKey here
  let indent := match l.columns with
    | [] => 0
    | c :: _ => c + 1
  let found := plain (l.depth ≠ 0) indent s
  return { l with keyAllowed := found.lineEnded }.emit (.scalar found.text true) found.rest

def token (l : Layout) (here : Spot) (after : Stream) : Except Fault Layout :=
  let flow := l.depth ≠ 0
  let c := here.char
  let s := here :: after
  if c = '%' && here.column = 0 then l.directive after
  else if here.column = 0 && Stream.atMark '-' s then l.documentMark .documentStart after
  else if here.column = 0 && Stream.atMark '.' s then l.documentMark .documentEnd after
  else if c = '[' then l.openBracket .flowListStart here after
  else if c = '\x7b' then l.openBracket .flowMappingStart here after
  else if c = ']' then l.closeBracket .flowListEnd after
  else if c = '\x7d' then l.closeBracket .flowMappingEnd after
  else if c = ',' then l.comma after
  else if c = '-' && Stream.atBlank after then l.item here after
  else if c = '?' && (flow || Stream.atBlank after) then l.key here after
  else if c = ':' && (flow || Stream.atBlank after) then l.value here after
  else if c = '*' then l.named here .alias after
  else if c = '&' then l.named here .anchor after
  else if c = '!' then l.tag here after
  else if c = '|' && !flow then l.blockScalar false after
  else if c = '>' && !flow then l.blockScalar true after
  else if c = '\'' then l.quoted here (singleQuoted after)
  else if c = '"' then l.quoted here (doubleQuoted after)
  else if startsPlain flow s then l.plainScalar here s
  else .error .malformed

/-- Whether a line has ended before the next token, and the rest from there on.  `comment` tells
whether the stream begins inside a comment. -/
def skipBlank (comment lineEnded : Bool) : Stream → Bool × Stream
  | [] => (lineEnded, [])
  | c :: rest =>
    if isLineEnd c.char then skipBlank false true rest
    else if comment then skipBlank true lineEnded rest
    else if c.char = ' ' then skipBlank false lineEnded rest
    else if c.char = '#' then skipBlank true lineEnded rest
    else (lineEnded, c :: rest)

/-- The layout at the next token.  Outside of brackets a key may begin on a new line. -/
def atNext (l : Layout) : Layout :=
  let (lineEnded, rest) := skipBlank false false l.rest
  { l with rest, keyAllowed := l.keyAllowed || (lineEnded && l.depth = 0) }

def step (l : Layout) (here : Spot) (after : Stream) : Except Fault Layout := do
  let l ← l.forgetKeys fun k => k.isOver here
  let l := if l.depth = 0 then l.closeTo here.column else l
  l.token here after

/-- The tokens up to a fault.  What may still turn out to be a key is not known before the colon
after it is found or ruled out, and so it is not reached. -/
def upTo (f : Fault) (l : Layout) : List Token :=
  let keys : List KeyStart := match l.rest with
    | [] => []
    | here :: _ => l.keys.filter fun k => !k.isOver here
  let n := keys.foldl (fun n k => min n k.tokens) l.tokens.length
  l.tokens.reverse.take n ++ [.fault f]

/-- All tokens of a document of which `fuel` is the length at most. -/
def run : Nat → Layout → List Token
  | 0, l => l.tokens.reverse
  | fuel + 1, l =>
    let next := l.atNext
    match next.rest with
    | [] =>
      if next.keys.any KeyStart.required then l.upTo .malformed else next.closeAll.tokens.reverse
    | here :: after =>
      match next.step here after with
      | .error f => l.upTo f
      | .ok next => run fuel next

end Layout

def tokens (s : Stream) : List Token := (Layout.start s).run (s.length + 1)

end Yaml
end ChangePairs
