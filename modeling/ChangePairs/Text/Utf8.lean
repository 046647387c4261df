import ChangePairs.Text.Basic

/-!
Texts as octets in UTF-8.  `encode` writes a text, and the reader takes one octet at a time and
knows how many more the present character owes.  An octet that cannot continue the present
character ends it as broken and is then read as the start of the next one, so every maximal piece
of a broken character counts once.  `decode` puts the replacement character for each of them; a
`Decoder` takes the octets in parts and stops at the first one.

Octets are natural numbers; the reader refuses those above 0xFF like any other that starts no
character.
-/

namespace ChangePairs

abbrev Octets := List Nat

namespace Octets

def ofChar (c : Char) : Octets :=
  let n := c.toNat
  if n < 0x80 then [n]
  else if n < 0x800 then [0xC0 + n / 64, 0x80 + n % 64]
  else if n < 0x10000 then [0xE0 + n / 4096, 0x80 + n / 64 % 64, 0x80 + n % 64]
  else [0xF0 + n / 262144, 0x80 + n / 4096 % 64, 0x80 + n / 64 % 64, 0x80 + n % 64]

def encode (t : Text) : Octets := t.flatMap ofChar

/-- Where a reader stands between two octets: before a character, or inside one that owes
`owed` more octets, the next of them between `low` and `high`, and whose bits so far are
`value`. -/
inductive Reader where
  | ready
  | inside (owed low high value : Nat)
deriving DecidableEq, Repr

inductive Step where
  /-- A character ends here. -/
  | char (c : Char)
  /-- The present character goes on. -/
  | more (next : Reader)
  /-- The octet cannot stand here. -/
  | refused
deriving DecidableEq, Repr

/-- The first octet of a character.  It tells how many follow; the bounds on the second one keep
out overlong forms, surrogates and values beyond the last character. -/
def start (b : Nat) : Step :=
  if b < 0x80 then .char (Char.ofNat b)
  else if 0xC2 ≤ b ∧ b ≤ 0xDF then .more (.inside 1 0x80 0xBF (b - 0xC0))
  else if b = 0xE0 then .more (.inside 2 0xA0 0xBF (b - 0xE0))
  else if b = 0xED then .more (.inside 2 0x80 0x9F (b - 0xE0))
  else if 0xE1 ≤ b ∧ b ≤ 0xEF then .more (.inside 2 0x80 0xBF (b - 0xE0))
  else if b = 0xF0 then .more (.inside 3 0x90 0xBF (b - 0xF0))
  else if 0xF1 ≤ b ∧ b ≤ 0xF3 then .more (.inside 3 0x80 0xBF (b - 0xF0))
  else if b = 0xF4 then .more (.inside 3 0x80 0x8F (b - 0xF0))
  else .refused

def Reader.step : Reader → Nat → Step
  | .ready, b => start b
  | .inside owed low high value, b =>
    if low ≤ b ∧ b ≤ high then
      let value := value * 64 + (b - 0x80)
      if owed ≤ 1 then .char (Char.ofNat value) else .more (.inside (owed - 1) 0x80 0xBF value)
    else .refused

def replacement : Char := '\ufffd'

def decodeFrom : Reader → Octets → Text
  | .ready, [] => []
  | .inside .., [] => [replacement]
  | reader, b :: rest =>
    match reader.step b with
    | .char c => c :: decodeFrom .ready rest
    | .more next => decodeFrom next rest
    | .refused =>
      match reader with
      | .ready => replacement :: decodeFrom .ready rest
      | .inside .. =>
        match start b with
        | .char c => replacement :: c :: decodeFrom .ready rest
        | .more next => replacement :: decodeFrom next rest
        | .refused => replacement :: replacement :: decodeFrom .ready rest

/-- The text of the octets, with the replacement character for each broken one. -/
def decode (octets : Octets) : Text := decodeFrom .ready octets

inductive FaultKind where
  | invalidStart
  | invalidContinuation
  | unexpectedEnd
deriving DecidableEq, Repr

/-- A broken character: its octets and where the first of them stands. -/
structure Fault where
  kind : FaultKind
  position : Nat
  octets : Octets
deriving DecidableEq, Repr

/-- Where a reader that refuses broken characters stands between two parts of what it reads, and the
octets of the present character, the last one first. -/
structure Decoder where
  reader : Reader
  taken : Octets

/-- The characters of the octets from where the reader stands, and where it stands after them, or
the first broken character.  `position` is that of the next octet, and `taken` are the octets of the
present character, the last one first. -/
def scan (position : Nat) (taken : Octets) : Reader → Octets → Except Fault (Text × Decoder)
  | reader, [] => .ok ([], ⟨reader, taken⟩)
  | reader, b :: rest =>
    match reader.step b with
    | .char c => (scan (position + 1) [] .ready rest).map fun (t, d) => (c :: t, d)
    | .more next => scan (position + 1) (b :: taken) next rest
    | .refused =>
      match reader with
      | .ready => .error ⟨.invalidStart, position, [b]⟩
      | .inside .. => .error ⟨.invalidContinuation, position - taken.length, taken.reverse⟩

namespace Decoder

def start : Decoder := ⟨.ready, []⟩

/-- The next part.  Positions count from the first octet of the character that it continues. -/
def part (d : Decoder) (octets : Octets) : Except Fault (Text × Decoder) :=
  scan d.taken.length d.taken d.reader octets

def cutOff? (d : Decoder) : Option Fault :=
  match d.reader with
  | .ready => none
  | .inside .. => some ⟨.unexpectedEnd, 0, d.taken.reverse⟩

/-- The text of the parts up to the one in which a character is broken, and that character. -/
def parts : Decoder → List Octets → Text × Option Fault
  | d, [] => ([], d.cutOff?)
  | d, octets :: rest =>
    match d.part octets with
    | .error fault => ([], some fault)
    | .ok (t, next) =>
      let (more, fault?) := parts next rest
      (t ++ more, fault?)

end Decoder

def decodeStrict (octets : Octets) : Except Fault Text :=
  match Decoder.start.parts [octets] with
  | (t, none) => .ok t
  | (_, some fault) => .error fault

def FaultKind.message : FaultKind → Text
  | .invalidStart => "invalid start byte".toList
  | .invalidContinuation => "invalid continuation byte".toList
  | .unexpectedEnd => "unexpected end of data".toList

/-- The report on a broken character: one octet is shown, several are given by position. -/
def Fault.message (fault : Fault) : Text :=
  let place :=
    match fault.octets with
    | [b] => "byte 0x".toList ++ Text.hex 2 b ++ " in position ".toList ++ Text.ofNat fault.position
    | octets => "bytes in position ".toList ++ Text.ofNat fault.position ++ ['-'] ++
        Text.ofNat (fault.position + octets.length - 1)
  "'utf-8' codec can't decode ".toList ++ place ++ ": ".toList ++ fault.kind.message

end Octets
end ChangePairs
