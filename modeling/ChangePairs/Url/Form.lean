import ChangePairs.Text.Utf8

/-!
Names and values in the query of an address.  Letters, digits, `_`, `.`, `-` and `~` stand for
themselves, a plus sign for a space, and every other octet in UTF-8 is written as a percent sign
and two hexadecimal digits.  So neither the equals sign after a name nor the ampersand between two
pairs stands inside a name or a value.
-/

namespace ChangePairs
namespace Form

def isPlain (c : Char) : Bool := c.isAlphanum || c = '_' || c = '.' || c = '-' || c = '~'

def hexDigit (n : Nat) : Char :=
  if n < 10 then Char.ofNat ('0'.toNat + n) else Char.ofNat ('A'.toNat + (n - 10))

def encodeOctet (b : Nat) : Text :=
  if b = 0x20 then ['+']
  else if b < 0x80 && isPlain (Char.ofNat b) then [Char.ofNat b]
  else ['%', hexDigit (b / 16), hexDigit (b % 16)]

def encodeText (t : Text) : Text := (Octets.encode t).flatMap encodeOctet

def encodePair (pair : Text × Text) : Text := encodeText pair.1 ++ '=' :: encodeText pair.2

def encode (pairs : List (Text × Text)) : Text := Text.join ['&'] (pairs.map encodePair)

end Form
end ChangePairs
