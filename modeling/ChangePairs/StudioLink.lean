import ChangePairs.Url.Basic
import ChangePairs.Url.Form

/-!
The link that opens the studio on what was learned.  It is the address of the studio with a query
of its own: a query or fragment that the address has is dropped.
-/

namespace ChangePairs

structure StudioTarget where
  engine : Text
  diffId : Text
  /-- The initialization vector that decrypts the stored diff. -/
  iv : Text
deriving DecidableEq, Repr

namespace StudioTarget

def parameters (t : StudioTarget) : List (Text × Text) :=
  [("engine".toList, t.engine), ("diffId".toList, t.diffId), ("iv".toList, t.iv),
   ("command".toList, "learn".toList)]

end StudioTarget

def Url.isStudio (u : Url) : Bool :=
  (u.scheme = "http".toList || u.scheme = "https".toList) && !u.authority.isEmpty

/-- The link to a target in the studio at an address, or `none` if no studio can be there. -/
def studioLink? (address : Text) (target : StudioTarget) : Option Text :=
  match Url.split? address with
  | none => none
  | some u =>
    if u.isStudio then some ({ u with query := Form.encode target.parameters, fragment := [] }).text
    else none

end ChangePairs
