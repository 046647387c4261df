import ChangePairs.Text.Utf8

/-!
Octets written in base 64.  Four characters of six bits each are a group of three octets.  The
last group may be shorter, and then equals signs fill it up and end the text; whatever stands
after them, and every character that stands for nothing, is passed over.
-/

namespace ChangePairs
namespace Base64

def sextet? (c : Char) : Option Nat :=
  if 'A' ≤ c ∧ c ≤ 'Z' then some (c.toNat - 'A'.toNat)
  else if 'a' ≤ c ∧ c ≤ 'z' then some (c.toNat - 'a'.toNat + 26)
  else if '0' ≤ c ∧ c ≤ '9' then some (c.toNat - '0'.toNat + 52)
  else if c = '+' then some 62
  else if c = '/' then some 63
  else none

/-- The octets of a group.  One character alone is less than an octet. -/
def groupOctets : List Nat → Octets
  | a :: b :: rest =>
    (4 * a + b / 16) ::
      match rest with
      | [] => []
      | c :: rest =>
        (b % 16 * 16 + c / 4) ::
          match rest with
          | [] => []
          | d :: _ => [c % 4 * 64 + d]
  | _ => []

/-- The octets of a text inside a group of which `group` is read, and after it `fill` equals
signs.  They fill it up if they are as many as it lacks. -/
def readFrom (group : List Nat) (fill : Nat) : Text → Option Octets
  | [] => if group.isEmpty then some [] else none
  | c :: rest =>
    if c = '=' then
      if group.length < 2 then readFrom group fill rest
      else if 4 ≤ group.length + fill + 1 then some (groupOctets group)
      else readFrom group (fill + 1) rest
    else
      match sextet? c with
      | none => readFrom group fill rest
      | some n =>
        if group.length < 3 then readFrom (group ++ [n]) 0 rest
        else (readFrom [] 0 rest).map (groupOctets (group ++ [n]) ++ ·)

/-- The octets that a text stands for, unless its last group is too short. -/
def read (t : Text) : Option Octets := readFrom [] 0 t

end Base64
end ChangePairs
