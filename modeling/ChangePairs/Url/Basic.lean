import ChangePairs.Text.RangeTable
import ChangePairs.Url.Host

/-!
Addresses on the web, taken apart at their marks.  Every text has a scheme, an authority, a path,
a query and a fragment, of which any may be empty, unless its authority is malformed.  Tabs and
line ends count for nothing, wherever they stand, and neither do spaces and control characters in
front.
-/

namespace ChangePairs

structure Url where
  /-- In lower case, without the colon. -/
  scheme : Text
  /-- Without the two slashes. -/
  authority : Text
  path : Text
  /-- Without the question mark. -/
  query : Text
  /-- Without the number sign. -/
  fragment : Text
deriving DecidableEq, Repr

namespace Url

def isSchemeChar (c : Char) : Bool := c.isAlphanum || c = '+' || c = '-' || c = '.'

def splitScheme (t : Text) : Text × Text :=
  match t.span (· ≠ ':') with
  | (c :: name, ':' :: rest) =>
    if c.isAlpha && name.all isSchemeChar then ((c :: name).map Char.toLower, rest) else ([], t)
  | _ => ([], t)

def endsAuthority (c : Char) : Bool := c = '/' || c = '?' || c = '#'

def splitAuthority (t : Text) : Text × Text :=
  match t with
  | '/' :: '/' :: rest => rest.span fun c => !endsAuthority c
  | _ => ([], t)

/-- The text before the first `mark` and the text after it. -/
def cut (mark : Char) (t : Text) : Text × Text :=
  (t.takeWhile (· ≠ mark), (t.dropWhile (· ≠ mark)).drop 1)

/-- Characters whose compatibility form holds a slash, a question mark, a number sign, an at sign
or a colon, and which could so be taken for the end of an authority or of a part of it. -/
def deceptiveTable : Text.RangeTable :=
  [(0x2047, 0x2049), (0x2100, 0x2101), (0x2105, 0x2106), (0x2A74, 0x2A74), (0xFE13, 0xFE13),
   (0xFE16, 0xFE16), (0xFE55, 0xFE56), (0xFE5F, 0xFE5F), (0xFE6B, 0xFE6B), (0xFF03, 0xFF03),
   (0xFF0F, 0xFF0F), (0xFF1A, 0xFF1A), (0xFF1F, 0xFF20)]

def isDeceptive (c : Char) : Bool := deceptiveTable.covers c.toNat

def isProper (authority : Text) : Bool :=
  authority.contains '[' = authority.contains ']' &&
    (!authority.contains '[' || hasProperBrackets authority) && !authority.any isDeceptive

def isIgnored (c : Char) : Bool := c = '\t' || c = '\r' || c = '\n'

def significant (t : Text) : Text :=
  (t.dropWhile fun c => c.toNat ≤ 0x20).filter fun c => !isIgnored c

/-- The parts of an address, or `none` if its authority is malformed. -/
def split? (t : Text) : Option Url :=
  let (scheme, rest) := splitScheme (significant t)
  let (authority, rest) := splitAuthority rest
  let (front, fragment) := cut '#' rest
  let (path, query) := cut '?' front
  if isProper authority then some ⟨scheme, authority, path, query, fragment⟩ else none

/-- The text of an address that has a scheme and an authority.  An empty query or fragment is
left out with its mark. -/
def text (u : Url) : Text :=
  let query := if u.query.isEmpty then [] else '?' :: u.query
  let fragment := if u.fragment.isEmpty then [] else '#' :: u.fragment
  u.scheme ++ "://".toList ++ u.authority ++ u.path ++ query ++ fragment

end Url
end ChangePairs
