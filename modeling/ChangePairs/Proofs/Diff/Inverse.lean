import ChangePairs.Diff.ChangedLine
import ChangePairs.Proofs.Text.Line

/-!
The hunk of the change back.  Its ranges change places, and so do the markers of the lines below
its header.  Its changed lines are those of the hunk, in the same order and with the same numbers,
each on the opposite side (`ofHunks_inverse`).
-/

namespace ChangePairs

def Side.opposite : Side → Side
  | .before => .after
  | .after => .before

theorem Side.eq_opposite_iff {s side : Side} : s.opposite = side.opposite ↔ s = side := by
  cases s <;> cases side <;> decide

/-- A body line of the change back: a deleted line becomes an added one, and an added line a
deleted one. -/
def swapMarker (line : Text) : Text :=
  match line with
  | '-' :: content => '+' :: content
  | '+' :: content => '-' :: content
  | _ => line

theorem swapMarker_feed (x : Text) : swapMarker (x ++ ['\n']) = swapMarker x ++ ['\n'] := by
  cases x with
  | nil => rfl
  | cons c rest =>
    by_cases hdash : c = '-'
    · subst hdash; rfl
    · by_cases hplus : c = '+'
      · subst hplus; rfl
      · simp [swapMarker, hdash, hplus]

theorem feed_not_mem_swapMarker {x : Text} (h : '\n' ∉ x) : '\n' ∉ swapMarker x := by
  unfold swapMarker
  split
  · simpa using h
  · simpa using h
  · exact h

theorem swapMarker_ne_nil {x : Text} (h : x ≠ []) : swapMarker x ≠ [] := by
  unfold swapMarker
  split
  · simp
  · simp
  · exact h

/-! ## Lines -/

theorem areLines_map_swapMarker {ls : List Text} (h : Text.AreLines ls) :
    Text.AreLines (ls.map swapMarker) := by
  induction h with
  | nil => exact .nil
  | last feedless nonempty =>
    exact .last (feed_not_mem_swapMarker feedless) (swapMarker_ne_nil nonempty)
  | cons feedless _ ih =>
    rw [List.map_cons, swapMarker_feed]
    exact .cons (feed_not_mem_swapMarker feedless) ih

theorem map_chompLine_swapMarker {ls : List Text} (h : Text.AreLines ls) :
    (ls.map swapMarker).map Text.chompLine = (ls.map Text.chompLine).map swapMarker := by
  induction h with
  | nil => rfl
  | last feedless _ =>
    have hswapped := feed_not_mem_swapMarker feedless
    simp [Text.chompLine_of_not_mem feedless, Text.chompLine_of_not_mem hswapped]
  | cons feedless _ ih =>
    simp only [List.map_cons, swapMarker_feed, Text.chompLine_feed, ih]

/-! ## One hunk -/

namespace Hunk

/-- The lines of the change back: the header line is kept. -/
def inverseLines (ls : List Text) : List Text := ls.take 1 ++ (ls.drop 1).map swapMarker

def inverse (h : Hunk) : Hunk :=
  { header := h.header
    old := h.new
    new := h.old
    text := (inverseLines (Text.lines h.text)).flatten }

theorem areLines_inverseLines {ls : List Text} (h : Text.AreLines ls) :
    Text.AreLines (inverseLines ls) := by
  cases h with
  | nil => exact .nil
  | last feedless nonempty => exact .last feedless nonempty
  | cons feedless rest => exact .cons feedless (areLines_map_swapMarker rest)

theorem bodyLines_inverse (h : Hunk) : h.inverse.bodyLines = h.bodyLines.map swapMarker := by
  have hlines := Text.areLines_lines h.text
  have hdrop : (inverseLines (Text.lines h.text)).drop 1 =
      ((Text.lines h.text).drop 1).map swapMarker := by
    unfold inverseLines
    cases Text.lines h.text <;> rfl
  unfold bodyLines
  rw [inverse, Text.lines_flatten (areLines_inverseLines hlines), hdrop,
    map_chompLine_swapMarker (hlines.drop 1)]

end Hunk

/-! ## Changed lines -/

namespace ChangedLine

def swap (l : ChangedLine) : ChangedLine := { l with side := l.side.opposite }

theorem ofBody_swapMarker (old new : Int) (body : List Text) :
    ofBody new old (body.map swapMarker) = (ofBody old new body).map swap := by
  fun_induction ofBody old new body with
  | case1 => rfl
  | case2 old new rest tail ih => exact ih
  | case3 old new rest content ih => exact congrArg (_ :: ·) ih
  | case4 old new rest content ih => exact congrArg (_ :: ·) ih
  | case5 old new line rest hnote hdeleted hadded ih =>
    -- A line of neither kind counts on both sides, so the two counters may change places.
    have hkept : swapMarker line = line := by
      unfold swapMarker
      split
      · next content => exact absurd rfl (hdeleted content)
      · next content => exact absurd rfl (hadded content)
      · rfl
    rw [List.map_cons, hkept, ← ih]
    simp only [ofBody]

/-- The changed lines keep their order and their numbers. -/
theorem ofHunks_inverse (hunks : List Hunk) :
    ofHunks (hunks.map Hunk.inverse) = (ofHunks hunks).map swap := by
  have hhunk : ∀ h : Hunk, ofHunk h.inverse = (ofHunk h).map swap := by
    intro h
    unfold ofHunk
    rw [Hunk.bodyLines_inverse]
    exact ofBody_swapMarker _ _ _
  unfold ofHunks
  rw [List.flatMap_map, List.map_flatMap]
  exact congrArg hunks.flatMap (funext hhunk)

end ChangedLine
end ChangePairs
