import ChangePairs.Git.Source
import ChangePairs.Session.Target

/-!
A workspace in the work tree around the present directory.
-/

namespace ChangePairs
namespace Git

variable {m : Type → Type} [Monad m]

/-- The workspace of a machine, with the nodes that `nodes` finds. -/
def workspace (h : Host m) (nodes : Language → Text → m (Option (List Node))) :
    Workspace (StateT CommitCache m) :=
  { present := h.present
    modified := (modifiedFiles h none : m (Option (List Path)))
    tracks := fun path => (isInWorkTree h path : m Bool)
    source := source h nodes }

end Git
end ChangePairs
