import ChangePairs.Text.Basic

/-!
Hosts in brackets.  Such a host is an address of the sixth version of the internet protocol, eight
groups of hexadecimal digits with colons between them, or an address of a later version that is
announced as one.
-/

namespace ChangePairs
namespace Url

def isHexDigit (c : Char) : Bool :=
  c.isDigit || ('a' ≤ c && c ≤ 'f') || ('A' ≤ c && c ≤ 'F')

/-- Whether a text is one of the four numbers of an address of the fourth version, in its only
spelling. -/
def isByteName (t : Text) : Bool :=
  !t.isEmpty && t.all Char.isDigit && t.length ≤ 3 && (t = ['0'] || t.head? ≠ some '0') &&
    t.foldl (fun n c => 10 * n + (c.toNat - '0'.toNat)) 0 ≤ 255

def isVersionFour (t : Text) : Bool :=
  let parts := Text.fields '.' t
  parts.length = 4 && parts.all isByteName

def isGroup (t : Text) : Bool := !t.isEmpty && t.length ≤ 4 && t.all isHexDigit

/-- The groups of an address, in which an address of the fourth version may stand for the last
two. -/
def groups? (t : Text) : Option (List Text) :=
  let parts := Text.fields ':' t
  match parts.reverse with
  | last :: front =>
    if parts.length < 3 then none
    else if last.contains '.' then
      if isVersionFour last then some (front.reverse ++ [['0'], ['0']]) else none
    else some parts
  | [] => none

/-- The groups before and after the one place where groups of zeros are left out, if there is
such a place, and otherwise all groups.  At either end of an address two colons have to stand
there. -/
def splitGroups? (groups : List Text) : Option (List Text × Option (List Text)) :=
  let inner := (groups.drop 1).dropLast
  match inner.filter List.isEmpty with
  | [] => some (groups, none)
  | [_] =>
    let before := groups.take 1 ++ inner.takeWhile fun g => !g.isEmpty
    let after := (inner.dropWhile fun g => !g.isEmpty).drop 1 ++ groups.drop (groups.length - 1)
    let left := if before.head? = some [] then before.drop 1 else before
    let right := if after.getLast? = some [] then after.dropLast else after
    if (left.length < before.length && !left.isEmpty) ||
        (right.length < after.length && !right.isEmpty) then none
    else some (left, some right)
  | _ => none

def isGrouped (t : Text) : Bool :=
  match groups? t with
  | none => false
  | some groups =>
    if 9 < groups.length then false
    else
      match splitGroups? groups with
      | none => false
      | some (all, none) => all.length = 8 && all.all isGroup
      | some (left, some right) =>
        left.length + right.length < 8 && left.all isGroup && right.all isGroup

/-- Whether a text is an address of the sixth version.  A percent sign may part a zone from it. -/
def isVersionSix (t : Text) : Bool :=
  match t.span (· ≠ '%') with
  | (address, []) => isGrouped address
  | (address, _ :: zone) => !zone.isEmpty && !zone.contains '%' && isGrouped address

def isLaterVersion (t : Text) : Bool :=
  match t with
  | 'v' :: rest =>
    match rest.span isHexDigit with
    | (_ :: _, '.' :: _ :: _) => true
    | _ => false
  | _ => false

def isBracketed (host : Text) : Bool :=
  if host.head? = some 'v' then isLaterVersion host else isVersionSix host

def afterUser (authority : Text) : Text := (authority.reverse.takeWhile (· ≠ '@')).reverse

/-- Whether the brackets of an authority are those of its host: nothing stands before them, and
nothing but the port after them.  Where the host has none, it is still held to be in brackets. -/
def hasProperBrackets (authority : Text) : Bool :=
  let place := afterUser authority
  match place.span (· ≠ '[') with
  | (before, _ :: inside) =>
    let after := (inside.dropWhile (· ≠ ']')).drop 1
    before.isEmpty && (after.isEmpty || after.head? = some ':') &&
      isBracketed (inside.takeWhile (· ≠ ']'))
  | (_, []) => isBracketed (place.takeWhile (· ≠ ':'))

end Url
end ChangePairs
