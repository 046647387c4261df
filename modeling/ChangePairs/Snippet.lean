import ChangePairs.Diff.Parse

/-!
What the change of a file is reduced to: snippet pairs, and diagnostics for the parts of the
change that were left out.
-/

namespace ChangePairs

/-- The text of one change before and after it.  One side may be empty. -/
structure SnippetPair where
  before : Text
  after : Text
deriving DecidableEq, Repr

namespace SnippetPair

def isEmpty (p : SnippetPair) : Bool := p.before.isEmpty && p.after.isEmpty

end SnippetPair

inductive FailureKind where
  | parseError
  | missingContent
deriving DecidableEq, Repr

namespace FailureKind

def name : FailureKind → Text
  | .parseError => "parse_error".toList
  | .missingContent => "missing_content".toList

def ofName? (t : Text) : Option FailureKind :=
  if t = name .parseError then some .parseError
  else if t = name .missingContent then some .missingContent
  else none

end FailureKind

/-- A recoverable failure, local to one hunk or to one file. -/
structure Diagnostic where
  kind : FailureKind
  path : Text
  message : Text
  /-- The header of the hunk that was left out, if it was a single one. -/
  hunkHeader : Option Text
deriving DecidableEq, Repr

namespace Diagnostic

def text (d : Diagnostic) : Text :=
  let place := match d.hunkHeader with
    | some (c :: header) => d.path ++ ' ' :: c :: header
    | _ => d.path
  d.kind.name ++ ": ".toList ++ place ++ ": ".toList ++ d.message

def ofRejection (path : Text) (r : Diff.Rejection) : Diagnostic :=
  ⟨.parseError, path, r.message, none⟩

def missing (path message : Text) : Diagnostic := ⟨.missingContent, path, message, none⟩

end Diagnostic

structure Outcome where
  path : Text
  pairs : List SnippetPair
  diagnostics : List Diagnostic
deriving DecidableEq, Repr

namespace Outcome

def missing (path message : Text) : Outcome := ⟨path, [], [.missing path message]⟩

end Outcome
end ChangePairs
