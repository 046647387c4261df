import Mathlib.Data.List.Flatten
import ChangePairs.Proofs.Diff.Opening

/-!
Diffs one behind the other.  A line that opens a hunk closes whatever stands before it, so a diff
may be cut in front of such a line: the parts are read on their own, and what they hold is put
together in the same order (`parse_append`).  This says as well that a part which cannot be read
leaves the whole unread.

A rejected header leaves nothing behind but its report, and neither does a preamble.  So the texts
of the hunks that were read make up a diff of these hunks and of nothing else (`parse_hunks`).
-/

namespace ChangePairs
namespace Diff

namespace Parsed

def append (p q : Parsed) : Parsed := ⟨p.hunks ++ q.hunks, p.rejections ++ q.rejections⟩

theorem cons_append (r : Except Rejection Hunk) (p q : Parsed) :
    (p.append q).cons r = (p.cons r).append q := by
  cases r <;> rfl

end Parsed

/-! ## Cutting in front of a hunk -/

theorem sections_append {line : Text} (h : Header.opens line = true) (front back : List Text) :
    sections (front ++ line :: back) =
      ((sections front).1, (sections front).2 ++ (sections (line :: back)).2) := by
  induction front with
  | nil => simp [sections, h]
  | cons other front ih =>
    rw [List.cons_append, sections, ih]
    by_cases ho : Header.opens other = true
    · simp [sections, ho]
    · simp [sections, ho]

/-- The first failure is the one that is met. -/
theorem readSections_append (ss ts : List Section) :
    readSections (ss ++ ts) = do
      let p ← readSections ss
      let q ← readSections ts
      return p.append q := by
  induction ss with
  | nil =>
    rw [List.nil_append, readSections]
    cases readSections ts with
    | error e => rfl
    | ok q => rfl
  | cons s ss ih =>
    rw [List.cons_append, readSections, ih, readSections]
    cases s.read with
    | error e => rfl
    | ok r =>
      cases readSections ss with
      | error e => rfl
      | ok p =>
        cases readSections ts with
        | error e => rfl
        | ok q => exact congrArg Except.ok (Parsed.cons_append r p q)

theorem exists_lines_of_opens {y : Text} (h : Header.opens y = true) :
    ∃ line rest, Text.lines y = line :: rest ∧ Header.opens line = true := by
  have hne : y ≠ [] := by
    rintro rfl
    nomatch h
  obtain ⟨line, rest, hlines⟩ := List.exists_cons_of_ne_nil (mt Text.lines_eq_nil_iff.1 hne)
  exact ⟨line, rest, hlines, (opens_first hlines).trans h⟩

theorem parse_append {x y : Text} (hx : x = [] ∨ x.getLast? = some '\n')
    (hy : Header.opens y = true) :
    parse (x ++ y) = do
      let p ← parse x
      let q ← parse y
      return p.append q := by
  obtain ⟨line, rest, hlines, hopens⟩ := exists_lines_of_opens hy
  unfold parse
  rw [Text.lines_append hx, hlines, sections_append hopens, readSections_append]

/-! ## The hunks alone -/

/-- The sections whose headers are read give their hunks without the others. -/
theorem exists_kept {ss : List Section} {results : List (Except Rejection Hunk)}
    (h : List.Forall₂ (fun s r => Section.read s = .ok r) ss results) :
    ∃ kept : List Section, kept.Sublist ss ∧
      readSections kept = .ok ⟨(Parsed.ofResults results).hunks, []⟩ ∧
      kept.map Section.text = (Parsed.ofResults results).hunks.map Hunk.text := by
  induction h with
  | nil => exact ⟨[], .slnil, rfl, rfl⟩
  | @cons s r ss rs hs _ ih =>
    obtain ⟨kept, hsub, hread, htext⟩ := ih
    cases r with
    | error rejection => exact ⟨kept, hsub.cons s, hread, htext⟩
    | ok hunk =>
      have hhunk : s.text = hunk.text := by
        obtain ⟨x, -, hx⟩ := Section.read_eq_ok_iff.1 hs
        cases x with
        | error fault => nomatch hx
        | ok ranges =>
          rw [← Except.ok.inj hx]
      refine ⟨s :: kept, hsub.cons_cons s, ?_, ?_⟩
      · rw [readSections, hs, hread]
        rfl
      · rw [List.map_cons, htext, hhunk]
        rfl

/-- The texts of some sections of a diff have the lines of these sections. -/
theorem lines_texts {diff : Text} {kept : List Section}
    (hsub : kept.Sublist (sections (Text.lines diff)).2) :
    Text.lines (kept.map Section.text).flatten = kept.flatMap Section.lines := by
  have hlines := (areLines_sections diff).2.sublist (hsub.flatMap _)
  have hflatten : (kept.map Section.text).flatten = (kept.flatMap Section.lines).flatten := by
    rw [← List.flatMap_def, List.flatten_eq_flatMap, List.flatMap_assoc]
    refine List.flatMap_congr fun s _ => ?_
    rw [Section.text_eq, List.flatten_eq_flatMap]
  rw [hflatten, Text.lines_flatten hlines]

theorem parse_hunks {diff : Text} {parsed : Parsed} (h : parse diff = .ok parsed) :
    parse (parsed.hunks.map Hunk.text).flatten = .ok ⟨parsed.hunks, []⟩ := by
  obtain ⟨results, hresults, rfl⟩ := readSections_eq_ok_iff.1 h
  obtain ⟨kept, hsub, hread, htext⟩ := exists_kept hresults
  have hproper : ∀ s ∈ kept, s.IsProper := by
    intro s hs
    exact (sections_spec (Text.lines diff)).2.2 s (hsub.subset hs)
  unfold parse
  rw [← htext, lines_texts hsub, sections_flatMap hproper]
  exact hread

/-- A diff may be cut in front of every line that opens a hunk: the whole is read if and only if
both parts are, and holds what they hold.  The hunks of a diff, put together, are read as they are,
and nothing is rejected. -/
theorem parse_composes :
    (∀ (x y : Text) (parsed : Parsed), (x = [] ∨ x.getLast? = some '\n') →
      Header.opens y = true →
        (parse (x ++ y) = .ok parsed ↔
          ∃ p q, parse x = .ok p ∧ parse y = .ok q ∧ parsed.hunks = p.hunks ++ q.hunks ∧
            parsed.rejections = p.rejections ++ q.rejections)) ∧
      ∀ (diff : Text) (parsed : Parsed), parse diff = .ok parsed →
        parse (parsed.hunks.map Hunk.text).flatten = .ok ⟨parsed.hunks, []⟩ := by
  constructor
  · intro x y parsed hx hy
    rw [parse_append hx hy, bind_eq_ok_iff]
    constructor
    · rintro ⟨p, hp, h⟩
      obtain ⟨q, hq, h⟩ := bind_eq_ok_iff.1 h
      obtain rfl := Except.ok.inj h
      exact ⟨p, q, hp, hq, rfl, rfl⟩
    · rintro ⟨p, q, hp, hq, hhunks, hrejections⟩
      obtain ⟨hunks, rejections⟩ := parsed
      subst hhunks hrejections
      exact ⟨p, hp, bind_eq_ok_iff.2 ⟨q, hq, rfl⟩⟩
  · intro diff parsed h
    exact parse_hunks h

/-- The first part ends in a rejected hunk, and the second part opens with nothing but two marks and
the line feed behind them. -/
theorem parse_composes_rejecting :
    let x := "--- f\n@@ -1 +1 @@\n-a\n+b\n@@ -x +1 @@\n-q\n".toList
    let y := "@@\n c\n@@ -3,0 +4 @@ f\n+c".toList
    let first : Hunk := ⟨"@@ -1 +1 @@".toList, ⟨1, 1⟩, ⟨1, 1⟩, "@@ -1 +1 @@\n-a\n+b\n".toList⟩
    let last : Hunk := ⟨"@@ -3,0 +4 @@ f".toList, ⟨3, 0⟩, ⟨4, 1⟩, "@@ -3,0 +4 @@ f\n+c".toList⟩
    let parsed : Parsed := ⟨[first, last],
      [⟨"@@ -x +1 @@".toList, .nonNumeric "x".toList⟩, ⟨"@@".toList, .malformed⟩]⟩
    (x.getLast? = some '\n' ∧ Header.opens y = true) ∧ parse (x ++ y) = .ok parsed ∧
      (∃ p q, parse x = .ok p ∧ parse y = .ok q ∧ [first, last] = p.hunks ++ q.hunks ∧
        parsed.rejections = p.rejections ++ q.rejections) ∧
      parse ("@@ -1 +1 @@\n-a\n+b\n@@ -3,0 +4 @@ f\n+c".toList) = .ok ⟨[first, last], []⟩ := by
  intro x y first last parsed
  have hlast : x.getLast? = some '\n' := by rfl
  have hopens : Header.opens y = true := by rfl
  have hparse : parse (x ++ y) = .ok parsed := by rfl
  refine ⟨⟨hlast, hopens⟩, hparse, ?_, ?_⟩
  · exact (parse_composes.1 x y parsed (.inr hlast) hopens).1 hparse
  · exact parse_composes.2 (x ++ y) parsed hparse

end Diff
end ChangePairs
