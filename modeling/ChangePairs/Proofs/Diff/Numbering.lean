import ChangePairs.Diff.ChangedLine
import ChangePairs.Proofs.Diff.Unified

/-!
The numbers of changed lines.  A body line belongs to one side, to both or to none, and reading
it moves the counter of each side that it belongs to by one (`ofBody_cons`).  So a changed line is
numbered by its place among the lines of its side (`exists_of_mem_ofBody`), and in a hunk that
fits, those are lines of the file from the start of the range on.

The main statement, `ofHunks_unified`, says this of every unified diff: one entry for each deleted
and each added line, in the order of the bodies, with the number that its content has in the file.
What a line looks like plays no part, be it a header, a file name or a remark.
-/

namespace ChangePairs
namespace Diff

namespace BodyLine

def change? (l : BodyLine) : Option (Side × Text) :=
  match l.kind with
  | .deleted => some (.before, Text.trim l.content)
  | .added => some (.after, Text.trim l.content)
  | .context | .note => none

def step (l : BodyLine) (side : Side) : Int := if (l.on? side).isSome then 1 else 0

theorem on?_of_change? {l : BodyLine} {side : Side} {content : Text}
    (h : l.change? = some (side, content)) :
    ∃ line, l.on? side = some line ∧ content = Text.trim line := by
  obtain ⟨kind, line⟩ := l
  cases kind with
  | context | note => simp [change?] at h
  | deleted | added =>
    simp only [change?, Option.some.injEq, Prod.mk.injEq] at h
    obtain ⟨rfl, rfl⟩ := h
    exact ⟨line, rfl, rfl⟩

theorem pick_step (l : BodyLine) (old new : Int) (side : Side) :
    side.pick (old + l.step .before) (new + l.step .after) =
      side.pick old new + l.step side := by
  cases side <;> rfl

end BodyLine

open ChangedLine (ofBody)

theorem ofBody_cons_ofText (old new : Int) (line : Text) (rest : List Text) :
    ofBody old new (line :: rest) =
      ((BodyLine.ofText line).change?.map
        fun c => (⟨c.1, c.2, c.1.pick old new⟩ : ChangedLine)).toList ++
        ofBody (old + (BodyLine.ofText line).step .before)
          (new + (BodyLine.ofText line).step .after) rest := by
  unfold BodyLine.ofText
  fun_cases LineKind.ofText line <;> simp [ofBody, BodyLine.change?, BodyLine.step, BodyLine.on?,
    Side.pick, *]

theorem ofBody_cons (old new : Int) (l : BodyLine) (rest : List Text) :
    ofBody old new (l.text :: rest) =
      (l.change?.map fun c => (⟨c.1, c.2, c.1.pick old new⟩ : ChangedLine)).toList ++
        ofBody (old + l.step .before) (new + l.step .after) rest := by
  rw [ofBody_cons_ofText, BodyLine.ofText_text]

theorem map_ofBody_ofText (old new : Int) (body : List Text) :
    (ofBody old new body).map (fun e => (e.side, e.content)) =
      body.filterMap fun line => (BodyLine.ofText line).change? := by
  induction body generalizing old new with
  | nil => rfl
  | cons line body ih =>
    rw [ofBody_cons_ofText, List.map_append, ih, List.filterMap_cons]
    cases (BodyLine.ofText line).change? <;> rfl

theorem map_ofBody (old new : Int) (body : List BodyLine) :
    (ofBody old new (body.map BodyLine.text)).map (fun e => (e.side, e.content)) =
      body.filterMap BodyLine.change? := by
  rw [map_ofBody_ofText, List.filterMap_map]
  simp only [Function.comp_def, BodyLine.ofText_text]

/-- The sides and the contents of changed lines are those of the body lines, wherever these stand. -/
theorem map_ofHunks (hunks : List Hunk) :
    (ChangedLine.ofHunks hunks).map (fun e => (e.side, e.content)) =
      (hunks.flatMap Hunk.bodyLines).filterMap fun line => (BodyLine.ofText line).change? := by
  unfold ChangedLine.ofHunks
  rw [List.map_flatMap, List.filterMap_flatMap]
  exact List.flatMap_congr fun h _ => map_ofBody_ofText _ _ _

/-- A changed line stands among the lines of its side at the place by which its number exceeds
the counter. -/
theorem exists_of_mem_ofBody {old new : Int} {body : List BodyLine} {e : ChangedLine}
    (h : e ∈ ofBody old new (body.map BodyLine.text)) :
    ∃ (j : Nat) (line : Text), e.number = e.side.pick old new + j ∧
      (body.filterMap (BodyLine.on? e.side))[j]? = some line ∧ e.content = Text.trim line := by
  induction body generalizing old new with
  | nil => simp [ofBody] at h
  | cons l body ih =>
    rw [List.map_cons, ofBody_cons, List.mem_append] at h
    rcases h with h | h
    · obtain ⟨⟨side, content⟩, hchange, rfl⟩ := Option.map_eq_some_iff.1 (Option.mem_toList.1 h)
      obtain ⟨line, hon, hcontent⟩ := BodyLine.on?_of_change? hchange
      refine ⟨0, line, by simp, ?_, hcontent⟩
      rw [List.filterMap_cons, hon]
      rfl
    · obtain ⟨j, line, hnumber, hline, hcontent⟩ := ih h
      rw [BodyLine.pick_step] at hnumber
      rw [List.filterMap_cons]
      cases hon : l.on? e.side with
      | none =>
        have hstep : l.step e.side = 0 := by simp [BodyLine.step, hon]
        exact ⟨j, line, by omega, hline, hcontent⟩
      | some other =>
        have hstep : l.step e.side = 1 := by simp [BodyLine.step, hon]
        exact ⟨j + 1, line, by omega, by rwa [List.getElem?_cons_succ], hcontent⟩

/-- The numbers of one side increase. -/
theorem pairwise_ofBody (old new : Int) (body : List BodyLine) :
    (ofBody old new (body.map BodyLine.text)).Pairwise
      fun a b => a.side = b.side → a.number < b.number := by
  induction body generalizing old new with
  | nil => exact .nil
  | cons l body ih =>
    rw [List.map_cons, ofBody_cons]
    cases hchange : l.change? with
    | none => exact ih _ _
    | some change =>
      obtain ⟨side, content⟩ := change
      obtain ⟨line, hon, -⟩ := BodyLine.on?_of_change? hchange
      have hstep : l.step side = 1 := by simp [BodyLine.step, hon]
      -- The entries behind this one start from a counter that it has moved.
      refine List.pairwise_cons.2 ⟨?_, ih _ _⟩
      rintro e he rfl
      obtain ⟨j, -, hnumber, -, -⟩ := exists_of_mem_ofBody he
      rw [BodyLine.pick_step] at hnumber
      show e.side.pick old new < e.number
      omega

/-! ## Files -/

/-- A line at a place of a range stands in the text as many lines further on. -/
theorem IsRangeOf.getElem? {t : Text} {r : LineRange} {ls : List Text} {j : Nat} {line : Text}
    (h : IsRangeOf t r ls) (hj : ls[j]? = some line) :
    ∃ n : Nat, r.start + j = n + 1 ∧ (Text.bareLines t)[n]? = some line ∧ r.start + j ≤ r.stop := by
  obtain ⟨hlt, -⟩ := List.getElem?_eq_some_iff.1 hj
  have hcount := h.count
  have hstart := h.start (by omega)
  rw [← h.lines, List.getElem?_take, if_pos hlt, List.getElem?_drop] at hj
  refine ⟨(r.start - 1).toNat + j, by omega, hj, ?_⟩
  unfold LineRange.stop
  omega

/-- The changed lines of a hunk between two texts: one for each deleted and each added line, in
order, with the content that the line with its number has in the text of its side. -/
structure IsNumbered (before after : Text) (h : UnifiedHunk) (entries : List ChangedLine) :
    Prop where
  changes : entries.map (fun e => (e.side, e.content)) = h.body.filterMap BodyLine.change?
  located : ∀ e ∈ entries, ∃ (n : Nat) (line : Text), e.number = n + 1 ∧
    (Text.bareLines (e.side.pick before after))[n]? = some line ∧ e.content = Text.trim line
  increasing : entries.Pairwise fun a b => a.side = b.side → a.number < b.number
  inRange : ∀ e ∈ entries,
    (h.range e.side).start ≤ e.number ∧ e.number ≤ (h.range e.side).stop

theorem Reads.ofHunk_eq {h : UnifiedHunk} {p : Hunk} (hread : Reads h p) :
    ChangedLine.ofHunk p =
      ofBody (h.range .before).start (h.range .after).start (h.body.map BodyLine.text) := by
  rw [← hread.range, ← hread.range, ← hread.body]
  rfl

theorem UnifiedHunk.Fits.isNumbered {before after : Text} {h : UnifiedHunk} {p : Hunk}
    (hfits : h.Fits before after) (hread : Reads h p) :
    IsNumbered before after h (ChangedLine.ofHunk p) := by
  rw [hread.ofHunk_eq]
  have hpick : ∀ side : Side,
      side.pick (h.range .before).start (h.range .after).start = (h.range side).start := by
    intro side
    cases side <;> rfl
  refine ⟨map_ofBody _ _ _, ?_, pairwise_ofBody _ _ _, ?_⟩
  · intro e he
    obtain ⟨j, line, hnumber, hline, hcontent⟩ := exists_of_mem_ofBody he
    rw [hpick] at hnumber
    obtain ⟨n, hn, hfile, -⟩ := (hfits e.side).getElem? hline
    exact ⟨n, line, by omega, hfile, hcontent⟩
  · intro e he
    obtain ⟨j, line, hnumber, hline, -⟩ := exists_of_mem_ofBody he
    rw [hpick] at hnumber
    obtain ⟨-, -, -, hstop⟩ := (hfits e.side).getElem? hline
    omega

/-- Every unified diff gives its changed lines the numbers that they have in the two texts. -/
theorem ofHunks_unified {before after diff : Text} {hunks : List UnifiedHunk}
    (h : IsUnified before after diff hunks) :
    ∃ (parsed : Parsed) (entries : List (List ChangedLine)),
      parse diff = .ok parsed ∧ parsed.rejections = [] ∧
      ChangedLine.ofHunks parsed.hunks = entries.flatten ∧
      List.Forall₂ (IsNumbered before after) hunks entries := by
  obtain ⟨ps, hparse, hreads⟩ := parse_unified h
  refine ⟨⟨ps, []⟩, ps.map ChangedLine.ofHunk, hparse, rfl, List.flatMap_def, ?_⟩
  rw [List.forall₂_map_right_iff]
  exact ((List.forall₂_and_left _ _).2 ⟨h.fits, hreads⟩).imp fun _ _ hp => hp.1.isNumbered hp.2

theorem ofHunks_unified_confusing :
    IsUnified Confusing.before Confusing.after Confusing.diff
        [Confusing.hunk, Confusing.emptyHunk] ∧
      ∃ (parsed : Parsed) (entries : List (List ChangedLine)),
        parse Confusing.diff = .ok parsed ∧ parsed.rejections = [] ∧
        ChangedLine.ofHunks parsed.hunks = entries.flatten ∧
        List.Forall₂ (IsNumbered Confusing.before Confusing.after)
          [Confusing.hunk, Confusing.emptyHunk] entries :=
  ⟨Confusing.isUnified, ofHunks_unified Confusing.isUnified⟩

end Diff
end ChangePairs
