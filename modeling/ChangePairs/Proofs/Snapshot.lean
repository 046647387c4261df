import ChangePairs.Snapshot
import ChangePairs.Proofs.Diff.DigitLimit
import ChangePairs.Proofs.Diff.Unified

/-!
Cutting ranges out of a text.  A range that lies in the text is cut as its lines, put together
with line feeds between them and without a carriage return at the end (`take?_of_isRangeOf`), so
a hunk that fits both texts gives the pair that is written in it.

A range that does not lie in the text is reported with its first and its last line, and the last
one, being a sum, may have too many digits to be written (`fails_sliceFile_iff`).
-/

namespace ChangePairs
namespace Snapshot

open Diff (IsRangeOf Reads UnifiedHunk)

theorem slice_natCast {α : Type} (l : List α) (k n : Nat) :
    slice l k ((k : Int) + n) = (l.drop k).take n := by
  have hbound : ∀ i : Nat, bound l.length i = min i l.length := fun i => by simp [bound]
  unfold slice
  rw [← Int.natCast_add, hbound, hbound, ← List.take_eq_take_min]
  rcases Nat.le_total k l.length with hk | hk
  · rw [Nat.min_eq_left hk, List.drop_take, Nat.add_sub_cancel_left]
  · rw [Nat.min_eq_right hk, List.drop_eq_nil_of_le hk, List.take_nil,
      List.drop_eq_nil_of_le (List.length_take_le' _ _)]

theorem take?_of_isRangeOf {t : Text} {r : LineRange} {ls : List Text} (h : IsRangeOf t r ls) :
    take? (Text.lines t) r = some (Text.dropReturn (Text.join ['\n'] ls)) := by
  have hcount := h.count
  unfold take?
  by_cases hzero : r.count = 0
  · have hnil : ls = [] := List.length_eq_zero_iff.1 (by omega)
    rw [if_pos hzero, hnil]
    rfl
  · have hstart := h.start (by omega)
    -- The first line is line 1 or later, so its place in the list is a natural number.
    obtain ⟨k, hk⟩ : ∃ k : Nat, r.start - 1 = k := ⟨(r.start - 1).toNat, by omega⟩
    have hls : (((Text.lines t).drop k).take ls.length).map Text.chompLine = ls := by
      have := h.lines
      rwa [hk, Text.bareLines, ← List.map_drop, ← List.map_take] at this
    have hlen : ls.length ≤ (Text.lines t).length - k := by
      have := congrArg List.length hls
      simp only [List.length_map, List.length_take, List.length_drop] at this
      omega
    rw [if_neg hzero, if_neg (by unfold LineRange.stop; omega), hk, ← hcount, slice_natCast,
      Text.dropTerminator_flatten ((Text.areLines_lines t).drop k |>.take _), hls]
    intro hnil
    rw [hnil] at hls
    rw [← hls] at hcount
    exact hzero hcount.symm

/-! ## Hunks that fit -/

/-- The pair that is written in a hunk: the lines of either side with line feeds between them,
without a carriage return at the end. -/
def writtenPair (h : UnifiedHunk) : SnippetPair :=
  { before := Text.dropReturn (Text.join ['\n'] (h.sideLines .before))
    after := Text.dropReturn (Text.join ['\n'] (h.sideLines .after)) }

theorem sliceLines_of_fits {before after : Text} {h : UnifiedHunk} {p : Hunk}
    (hfits : h.Fits before after) (hread : Reads h p) (path : Text) :
    sliceLines path (Text.lines before) (Text.lines after) p = .ok (.ok (writtenPair h)) := by
  have hold : take? (Text.lines before) p.old = some (writtenPair h).before := by
    have hrange : p.old = h.range .before := hread.range .before
    rw [hrange]
    exact take?_of_isRangeOf (hfits .before)
  have hnew : take? (Text.lines after) p.new = some (writtenPair h).after := by
    have hrange : p.new = h.range .after := hread.range .after
    rw [hrange]
    exact take?_of_isRangeOf (hfits .after)
  unfold sliceLines
  rw [hold, hnew]

/-- Hunks that are all sliced into pairs give these pairs, empty ones left out, and no
diagnostic. -/
theorem sliceAll_of_pairs {path : Text} {before after : List Text} {ps : List Hunk}
    {pairs : List SnippetPair}
    (h : List.Forall₂ (fun p pair => sliceLines path before after p = .ok (.ok pair)) ps pairs) :
    sliceAll path before after ps = .ok (pairs.filter fun pair => !pair.isEmpty, []) := by
  induction h with
  | nil => rfl
  | @cons p pair ps pairs hp _ ih =>
    rw [sliceAll, hp, ih, List.filter_cons]
    cases hempty : pair.isEmpty with
    | false => simp [bind, Except.bind, pure, Except.pure, hempty]
    | true => simp [bind, Except.bind, pure, Except.pure, hempty]

theorem sliceAll_of_fits {before after : Text} {hunks : List UnifiedHunk} {ps : List Hunk}
    (hreads : List.Forall₂ Reads hunks ps) (hfits : ∀ h ∈ hunks, h.Fits before after)
    (path : Text) :
    sliceAll path (Text.lines before) (Text.lines after) ps =
      .ok ((hunks.map writtenPair).filter fun pair => !pair.isEmpty, []) := by
  refine sliceAll_of_pairs ?_
  rw [List.forall₂_map_right_iff]
  exact (((List.forall₂_and_left _ _).2 ⟨hfits, hreads⟩).imp
    fun _ _ h => sliceLines_of_fits h.1 h.2 path).flip

/-! ## Hunks that do not fit -/

/-- The range holds lines and goes on behind the last line of a version of `total` lines. -/
def Overruns (r : LineRange) (total : Nat) : Prop := 0 < r.count ∧ total < r.stop

/-- The first range of the hunk that does not fit ends at a line whose number cannot be
written. -/
def IsUnreportable (before after : Nat) (h : Hunk) : Prop :=
  (Overruns h.old before ∧ tooLarge ≤ h.old.stop) ∨
    (¬ Overruns h.old before ∧ Overruns h.new after ∧ tooLarge ≤ h.new.stop)

theorem not_isUnreportable {before after : Nat} {h : Hunk} (hold : ¬ Overruns h.old before)
    (hnew : ¬ Overruns h.new after) : ¬ IsUnreportable before after h := by
  rintro (⟨h, -⟩ | ⟨-, h, -⟩)
  · exact hold h
  · exact hnew h

/-- A range that may stand in a header: its count is not negative, and it starts at the first line
or later if it has lines. -/
structure IsPlaced (r : LineRange) : Prop where
  count : 0 ≤ r.count
  start : 0 < r.count → 1 ≤ r.start

theorem isPlaced_of_mem_hunks {diff : Text} {parsed : Diff.Parsed}
    (h : Diff.parse diff = .ok parsed) :
    ∀ hunk ∈ parsed.hunks, ∀ side, IsPlaced (hunk.range side) := by
  intro hunk hmem side
  obtain ⟨hold, hnew⟩ := Diff.isStated_of_mem_hunks h hmem
  cases side with
  | before => exact ⟨hold.count_nonneg, hold.start_pos⟩
  | after => exact ⟨hnew.count_nonneg, hnew.start_pos⟩

theorem take?_eq_none_iff {lines : List Text} {r : LineRange} (h : IsPlaced r) :
    take? lines r = none ↔ Overruns r lines.length := by
  have hcount := h.count
  have hstart := h.start
  unfold take? Overruns
  split
  · refine iff_of_false (by simp) (by omega)
  · split
    · exact iff_of_true rfl (by omega)
    · exact iff_of_false (by simp) (by omega)

theorem fails_outOfRange_iff {path : Text} {h : Hunk} {total : Nat} (side : Side)
    (hplaced : IsPlaced (h.range side)) (hover : Overruns (h.range side) total) :
    Fails (outOfRange path h side total) ↔ tooLarge ≤ (h.range side).stop := by
  have hstart := hplaced.start hover.1
  -- The last line is written after the first one and has no smaller number.
  have hle : (h.range side).start ≤ (h.range side).stop := by
    have hcount := hover.1
    unfold LineRange.stop
    omega
  unfold outOfRange
  rw [fails_bind_bind_iff, fails_writeInteger_iff, fails_writeInteger_iff]
  · omega
  · exact fun _ _ => not_fails_ok _

theorem fails_sliceLines_iff {path : Text} {before after : List Text} {h : Hunk}
    (hplaced : ∀ side, IsPlaced (h.range side)) :
    Fails (sliceLines path before after h) ↔
      IsUnreportable before.length after.length h := by
  have hbefore : take? before h.old = none ↔ Overruns h.old before.length :=
    take?_eq_none_iff (hplaced .before)
  have hafter : take? after h.new = none ↔ Overruns h.new after.length :=
    take?_eq_none_iff (hplaced .after)
  unfold sliceLines IsUnreportable
  cases hb : take? before h.old with
  | none =>
    have hover := hbefore.1 hb
    dsimp only
    rw [fails_map_iff, fails_outOfRange_iff .before (hplaced .before) hover]
    exact ⟨fun h => .inl ⟨hover, h⟩, fun h => h.elim And.right fun h => absurd hover h.1⟩
  | some b =>
    have hfits : ¬ Overruns h.old before.length := by
      rw [← hbefore, hb]
      nofun
    cases ha : take? after h.new with
    | none =>
      have hover := hafter.1 ha
      dsimp only
      rw [fails_map_iff, fails_outOfRange_iff .after (hplaced .after) hover]
      exact ⟨fun h => .inr ⟨hfits, hover, h⟩,
        fun h => h.elim (fun h => absurd h.1 hfits) fun h => h.2.2⟩
    | some a =>
      refine iff_of_false (not_fails_ok _) ?_
      rintro (⟨hover, -⟩ | ⟨-, hover, -⟩)
      · exact hfits hover
      · rw [hafter.2 hover] at ha
        nomatch ha

theorem fails_sliceAll_iff {path : Text} {before after : List Text} {hunks : List Hunk}
    (hplaced : ∀ h ∈ hunks, ∀ side, IsPlaced (h.range side)) :
    Fails (sliceAll path before after hunks) ↔
      ∃ h ∈ hunks, IsUnreportable before.length after.length h := by
  induction hunks with
  | nil => exact iff_of_false (not_fails_ok _) (by simp)
  | cons h hunks ih =>
    have hh := hplaced h List.mem_cons_self
    have ih := ih fun x hx => hplaced x (List.mem_cons_of_mem h hx)
    rw [sliceAll, fails_bind_bind_iff, fails_sliceLines_iff hh, ih]
    · simp only [List.mem_cons, exists_eq_or_imp]
    · intro result rest
      cases result <;> exact not_fails_ok _

/-- One hunk that cannot be reported leaves the whole file without a result. -/
theorem fails_sliceFile_iff {path before after : Text} {hunks : List Hunk}
    (hplaced : ∀ h ∈ hunks, ∀ side, IsPlaced (h.range side)) :
    Fails (sliceFile path before after hunks) ↔
      ∃ h ∈ hunks, IsUnreportable (Text.lines before).length (Text.lines after).length h := by
  unfold sliceFile
  rw [fails_bind_iff, fails_sliceAll_iff hplaced, or_iff_left]
  rintro ⟨x, -, h⟩
  exact not_fails_ok _ h

end Snapshot
end ChangePairs
