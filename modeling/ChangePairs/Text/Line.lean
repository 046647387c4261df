import ChangePairs.Text.Basic

/-!
Lines as a version control system counts them: a line ends at a line feed and nowhere else, and
it keeps that line feed.  A form feed, a carriage return or a Unicode separator is an ordinary
character of its line.  The two statements are `flatten_lines`, that nothing is lost, and
`lines_append`, that lines can be cut apart after a line feed.
-/

namespace ChangePairs
namespace Text

/-- The lines of a text, each with its line feed; the last one may lack it.  The empty text has
no line, and a text that ends in a line feed has no empty line after it. -/
def lines : Text → List Text
  | [] => []
  | c :: rest =>
    if c = '\n' then ['\n'] :: lines rest
    else match lines rest with
      | [] => [[c]]
      | line :: more => (c :: line) :: more

/-- Nothing is lost and nothing is moved. -/
theorem flatten_lines (t : Text) : (lines t).flatten = t := by
  induction t with
  | nil => rfl
  | cons c rest ih =>
    simp only [lines]
    split
    · next h => simp [ih, h]
    · split
      · next h => rw [h] at ih; simp at ih; simp [← ih]
      · next line more h => rw [h] at ih; simp at ih; simp [ih]

theorem ne_nil_of_mem_lines {t line : Text} (h : line ∈ lines t) : line ≠ [] := by
  induction t generalizing line with
  | nil => simp [lines] at h
  | cons c rest ih =>
    simp only [lines] at h
    split at h
    · rcases List.mem_cons.1 h with rfl | h
      · simp
      · exact ih h
    · split at h
      · simp_all
      · next first more hl =>
        rcases List.mem_cons.1 h with rfl | h
        · simp
        · exact ih (by rw [hl]; exact List.mem_cons_of_mem _ h)

theorem lines_eq_nil_iff {t : Text} : lines t = [] ↔ t = [] := by
  constructor
  · intro h
    rw [← flatten_lines t, h]
    rfl
  · rintro rfl
    rfl

/-- Lines can be cut apart after a line feed. -/
theorem lines_append {x : Text} (h : x = [] ∨ x.getLast? = some '\n') (y : Text) :
    lines (x ++ y) = lines x ++ lines y := by
  induction x with
  | nil => rfl
  | cons c rest ih =>
    cases rest with
    | nil => simp_all [lines]
    | cons d rest =>
      have ih := ih (by simpa [List.getLast?_cons_cons] using h)
      rw [List.cons_append, lines, lines, ih]
      split
      · rfl
      · cases hl : lines (d :: rest) with
        | nil => exact absurd (lines_eq_nil_iff.1 hl) (by simp)
        | cons line more => rfl

def chompLine (line : Text) : Text :=
  match line.reverse with
  | '\n' :: front => front.reverse
  | _ => line

/-- A text without the terminator of its last line: a carriage return and line feed together, or
either of them alone. -/
def dropTerminator (t : Text) : Text :=
  match t.reverse with
  | '\n' :: '\r' :: front => front.reverse
  | '\n' :: front => front.reverse
  | '\r' :: front => front.reverse
  | _ => t

end Text
end ChangePairs
