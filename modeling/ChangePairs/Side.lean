import ChangePairs.Text.Basic

/-!
The two sides of a change.  Every file has a version before it and a version after it, and a diff
states its line ranges on the old and on the new side of it.
-/

namespace ChangePairs

inductive Side where
  | before
  | after
deriving DecidableEq, Repr

namespace Side

def versionName : Side → Text
  | .before => "before".toList
  | .after => "after".toList

def rangeName : Side → Text
  | .before => "old".toList
  | .after => "new".toList

end Side
end ChangePairs
