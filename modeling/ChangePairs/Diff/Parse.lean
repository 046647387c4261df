import ChangePairs.Diff.Header

/-!
The hunks of a unified diff.  The lines that open a hunk cut the diff into a preamble and
sections, one for each such line.  A section becomes a hunk or, if its header is rejected, a
report, and neither the preamble nor a rejected section leaves anything else behind.
-/

namespace ChangePairs
namespace Diff

/-- A line that opens a hunk and the lines up to the next one. -/
structure Section where
  first : Text
  rest : List Text
deriving DecidableEq, Repr

def Section.text (s : Section) : Text := s.first ++ s.rest.flatten

def sections : List Text → List Text × List Section
  | [] => ([], [])
  | line :: rest =>
    let (loose, found) := sections rest
    if Header.opens line then ([], ⟨line, loose⟩ :: found) else (line :: loose, found)

structure Rejection where
  header : Text
  fault : Header.Fault
deriving DecidableEq, Repr

def Rejection.message (r : Rejection) : Text := r.fault.message r.header

def Section.read (s : Section) : Except DigitLimitExceeded (Except Rejection Hunk) := do
  let header := Header.ofLine s.first
  match ← (Header.read header).run with
  | .ok (old, new) => return .ok ⟨header, old, new, s.text⟩
  | .error fault => return .error ⟨header, fault⟩

/-- What a diff holds: its hunks and its rejected headers, each in the order of the text. -/
structure Parsed where
  hunks : List Hunk
  rejections : List Rejection
deriving DecidableEq, Repr

namespace Parsed

def empty : Parsed := ⟨[], []⟩

def cons (result : Except Rejection Hunk) (p : Parsed) : Parsed :=
  match result with
  | .ok hunk => { p with hunks := hunk :: p.hunks }
  | .error rejection => { p with rejections := rejection :: p.rejections }

end Parsed

/-- The results of sections, in their order.  A number that is too long to be read ends all. -/
def readSections : List Section → Except DigitLimitExceeded Parsed
  | [] => .ok .empty
  | s :: rest => do
    let result ← s.read
    let parsed ← readSections rest
    return parsed.cons result

def parse (diff : Text) : Except DigitLimitExceeded Parsed :=
  readSections (sections (Text.lines diff)).2

end Diff
end ChangePairs
