import ChangePairs.Shell

/-!
Command lines taken apart the way a shell does it.  `split?` gives the words of a command line:
blanks part them, quotes are taken off, and what stands side by side is one word.  It has no words
for a line on which a shell would do more than that, so a line that it takes apart has nothing on it
that is left to the shell.

The main statement is `split?_commandLine`: the command line of some words is taken apart into
these words.
-/

namespace ChangePairs
namespace Shell

inductive Place where
  /-- Between two words. -/
  | between
  /-- In a word, outside of quotes. -/
  | unquoted
  | singleQuoted
  | doubleQuoted
deriving DecidableEq, Repr

inductive Reading where
  /-- It is a character of the present word. -/
  | kept (next : Place)
  /-- It is a quote or a blank in front of a word. -/
  | dropped (next : Place)
  /-- The present word ends. -/
  | ended
  /-- A shell would see more in it. -/
  | refused
deriving DecidableEq, Repr

def isGap (c : Char) : Bool := c = ' ' || c = '\t'

/-- Characters that mean something where they are not quoted, if only at some places: operators,
expansions, patterns, comments and line ends.  The null character is none of them, but no command
line can hold it. -/
def isSpecial (c : Char) : Bool :=
  "|&;<>()$`\\\"'*?[]#~!^\x7b\x7d\n\r\x00".toList.contains c

def isSpecialQuoted (c : Char) : Bool := "$`\\!\x00".toList.contains c

def readUnquoted (c : Char) : Reading :=
  if c = '\'' then .dropped .singleQuoted
  else if c = '"' then .dropped .doubleQuoted
  else if isSpecial c then .refused
  else .kept .unquoted

def Place.read : Place → Char → Reading
  | .between, c => if isGap c then .dropped .between else readUnquoted c
  | .unquoted, c => if isGap c then .ended else readUnquoted c
  | .singleQuoted, c =>
    if c = '\'' then .dropped .unquoted else if c = '\x00' then .refused else .kept .singleQuoted
  | .doubleQuoted, c =>
    if c = '"' then .dropped .unquoted
    else if isSpecialQuoted c then .refused
    else .kept .doubleQuoted

def extend (c : Char) : List Text → List Text
  | [] => [[c]]
  | word :: words => (c :: word) :: words

/-- The words of what is left of a command line, the first of them being the rest of the present one
unless the shell stands between two words. -/
def splitFrom : Place → Text → Option (List Text)
  | .between, [] => some []
  | .unquoted, [] => some [[]]
  | .singleQuoted, [] => none
  | .doubleQuoted, [] => none
  | place, c :: rest =>
    match place.read c with
    | .kept next => (splitFrom next rest).map (extend c)
    | .dropped next => splitFrom next rest
    | .ended => (splitFrom .between rest).map ([] :: ·)
    | .refused => none

/-- The words of a command line, unless there is anything on it but words and quotes. -/
def split? (line : Text) : Option (List Text) := splitFrom .between line

/-! ## One character -/

section

variable {place next : Place} {c : Char} {rest tail : Text} {words : List Text}

theorem splitFrom_of_kept (hread : place.read c = .kept next)
    (h : splitFrom next rest = some (tail :: words)) :
    splitFrom place (c :: rest) = some ((c :: tail) :: words) := by
  cases place <;> simp only [splitFrom, hread, h] <;> rfl

theorem splitFrom_of_dropped (hread : place.read c = .dropped next) :
    splitFrom place (c :: rest) = splitFrom next rest := by
  cases place <;> simp only [splitFrom, hread]

theorem splitFrom_gap (h : splitFrom .between rest = some words) :
    splitFrom .unquoted (' ' :: rest) = some ([] :: words) := by
  have hread : Place.read .unquoted ' ' = .ended := rfl
  simp only [splitFrom, hread, h, Option.map_some]

/-- A character that does not part words begins a word as it goes on with one. -/
theorem splitFrom_between (h : isGap c = false) :
    splitFrom .between (c :: rest) = splitFrom .unquoted (c :: rest) := by
  have hread : Place.read .between c = Place.read .unquoted c := by
    simp [Place.read, h]
  simp only [splitFrom, hread]

/-! ## One word -/

theorem read_of_isSafe (h : isSafe c = true) :
    isGap c = false ∧ Place.read .unquoted c = .kept .unquoted := by
  have hsingle : c ≠ '\'' := by
    rintro rfl
    nomatch h
  have hdouble : c ≠ '"' := by
    rintro rfl
    nomatch h
  have hgap : isGap c = false := by
    rw [Bool.eq_false_iff]
    intro hgap
    simp only [isGap, Bool.or_eq_true, decide_eq_true_eq] at hgap
    rcases hgap with rfl | rfl <;> nomatch h
  have hspecial : isSpecial c = false := by
    have hnone : "|&;<>()$`\\\"'*?[]#~!^\x7b\x7d\n\r\x00".toList.all (!isSafe ·) = true := rfl
    rw [Bool.eq_false_iff]
    intro hspecial
    have hc := List.all_eq_true.1 hnone c (List.contains_iff_mem.1 hspecial)
    rw [h] at hc
    nomatch hc
  refine ⟨hgap, ?_⟩
  simp [Place.read, readUnquoted, hgap, hspecial, hsingle, hdouble]

theorem splitFrom_safe {word : Text} (hword : ∀ c ∈ word, isSafe c = true)
    (h : splitFrom .unquoted rest = some (tail :: words)) :
    splitFrom .unquoted (word ++ rest) = some ((word ++ tail) :: words) := by
  induction word with
  | nil => exact h
  | cons c word ih =>
    rw [List.forall_mem_cons] at hword
    exact splitFrom_of_kept (read_of_isSafe hword.1).2 (ih hword.2)

/-- Between single quotes a word is read as it stands, with a single quote taken for the five
characters that leave the quotes, quote it and come back. -/
theorem splitFrom_quoteChar {word : Text} (hword : '\x00' ∉ word)
    (h : splitFrom .unquoted rest = some (tail :: words)) :
    splitFrom .singleQuoted (word.flatMap quoteChar ++ '\'' :: rest) =
      some ((word ++ tail) :: words) := by
  induction word with
  | nil => exact (splitFrom_of_dropped rfl).trans h
  | cons c word ih =>
    simp only [List.mem_cons, not_or] at hword
    rw [List.flatMap_cons, List.append_assoc]
    by_cases hc : c = '\''
    · subst hc
      -- Out of the single quotes, between double quotes, and back.
      have hread : Place.read .doubleQuoted '\'' = .kept .doubleQuoted := rfl
      refine (splitFrom_of_dropped rfl).trans ((splitFrom_of_dropped rfl).trans ?_)
      refine splitFrom_of_kept hread ?_
      exact (splitFrom_of_dropped rfl).trans ((splitFrom_of_dropped rfl).trans (ih hword.2))
    · have hread : Place.read .singleQuoted c = .kept .singleQuoted := by
        simp [Place.read, hc, Ne.symm hword.1]
      rw [quoteChar, if_neg hc]
      exact splitFrom_of_kept hread (ih hword.2)

theorem splitFrom_quote {word : Text} (hword : '\x00' ∉ word)
    (h : splitFrom .unquoted rest = some (tail :: words)) :
    splitFrom .between (quote word ++ rest) = some ((word ++ tail) :: words) := by
  unfold quote
  by_cases hsafe : (!word.isEmpty && word.all isSafe) = true
  · rw [if_pos hsafe]
    rw [Bool.and_eq_true, List.all_eq_true] at hsafe
    cases word with
    | nil => nomatch hsafe.1
    | cons c word =>
      rw [List.cons_append, splitFrom_between (read_of_isSafe (hsafe.2 c List.mem_cons_self)).1]
      exact splitFrom_safe hsafe.2 h
  · have hopen := splitFrom_quoteChar hword h
    have hline : '\'' :: word.flatMap quoteChar ++ ['\''] ++ rest =
        '\'' :: (word.flatMap quoteChar ++ '\'' :: rest) := by simp
    rw [if_neg hsafe, hline]
    exact (splitFrom_of_dropped rfl).trans hopen

end

/-! ## All words -/

theorem commandLine_cons (word : Text) {words : List Text} (h : words ≠ []) :
    commandLine (word :: words) = quote word ++ ' ' :: commandLine words := by
  have hmap : words.map quote ≠ [] := by simpa using h
  unfold commandLine Text.join
  rw [List.map_cons, List.intercalate_cons_of_ne_nil hmap, List.append_assoc]
  rfl

/-- The command line of words is taken apart into these words. -/
theorem split?_commandLine {words : List Text} (h : ∀ word ∈ words, '\x00' ∉ word) :
    split? (commandLine words) = some words := by
  unfold split?
  induction words with
  | nil => rfl
  | cons word words ih =>
    rw [List.forall_mem_cons] at h
    by_cases hlast : words = []
    · subst hlast
      have hend : splitFrom .unquoted [] = some [[]] := rfl
      simpa [commandLine, Text.join] using splitFrom_quote h.1 hend
    · rw [commandLine_cons word hlast]
      simpa using splitFrom_quote h.1 (splitFrom_gap (ih h.2))

theorem commandLine_injective {words words' : List Text} (h : ∀ word ∈ words, '\x00' ∉ word)
    (h' : ∀ word ∈ words', '\x00' ∉ word) (hline : commandLine words = commandLine words') :
    words = words' := by
  have hsplit := split?_commandLine h
  rw [hline, split?_commandLine h'] at hsplit
  exact (Option.some.inj hsplit).symm

end Shell
end ChangePairs
