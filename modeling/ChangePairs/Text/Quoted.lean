import ChangePairs.Text.Printable
import ChangePairs.Text.Utf8

/-!
A text as it is quoted in a message, and octets.  Single quotes are used unless the text holds a
single quote and no double quote.  The quote in use and the backslash are written after a
backslash, line feed, carriage return and tab by their letter, and every other character that
leaves no mark by its code point in two, four or eight hexadecimal digits.  Octets are quoted like
a text after a letter, and those that are no ASCII character in two hexadecimal digits.
-/

namespace ChangePairs
namespace Text

def quoteFor (t : Text) : Char := if t.contains '\'' && !t.contains '"' then '"' else '\''

def escape (quote c : Char) : Text :=
  if c = quote || c = '\\' then ['\\', c]
  else if c = '\n' then ['\\', 'n']
  else if c = '\r' then ['\\', 'r']
  else if c = '\t' then ['\\', 't']
  else if isPrintable c then [c]
  else if c.toNat < 0x100 then '\\' :: 'x' :: hex 2 c.toNat
  else if c.toNat < 0x10000 then '\\' :: 'u' :: hex 4 c.toNat
  else '\\' :: 'U' :: hex 8 c.toNat

def quoted (t : Text) : Text :=
  let quote := quoteFor t
  quote :: t.flatMap (escape quote) ++ [quote]

end Text

namespace Octets

def escape (quote : Char) (b : Nat) : Text :=
  if b < 0x80 then Text.escape quote (Char.ofNat b) else '\\' :: 'x' :: Text.hex 2 b

def quoted (octets : Octets) : Text :=
  let quote := Text.quoteFor (octets.map Char.ofNat)
  'b' :: quote :: octets.flatMap (escape quote) ++ [quote]

end Octets
end ChangePairs
