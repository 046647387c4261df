import ChangePairs.Correlation
import ChangePairs.Proofs.Diff.Unified
import ChangePairs.Proofs.Distinct
import ChangePairs.Proofs.Text.Part

/-!
What a change comes to by whole statements.  `Matching.Touches` says that a meaningful changed
line selects a statement, and the candidates of a side are the texts of the statements that are
touched, each once and in the order of the first of them (`listsInOrder_texts`).

`Reduces` says what the outcome of a file is, by cases and without a run over the lines, and the
main statement, `correlate_reduces`, says that there is one such outcome and that it is found.
-/

namespace ChangePairs

namespace Matching

/-- Whether a changed line selects a statement, by the lines of the statement or by its text. -/
def Selects : Matching → ChangedLine → Statement → Prop
  | .position, l, s => s.firstLine ≤ l.number ∧ l.number ≤ s.lastLine
  | .substring, l, s => l.content <:+: s.text

theorem selects_iff {m : Matching} {l : ChangedLine} {s : Statement} :
    m.selects l s = true ↔ m.Selects l s := by
  cases m with
  | position => simp [selects, Selects, Statement.covers]
  | substring => exact Text.occursIn_iff

def Touches (m : Matching) (side : Side) (lines : List ChangedLine) (s : Statement) : Prop :=
  ∃ l ∈ lines, l.side = side ∧ ChangedLine.isMeaningful l.content = true ∧ m.Selects l s

end Matching

namespace Candidates

def on (c : Candidates) (side : Side) : List Text := side.pick c.before c.after

theorem on_collect (m : Matching) (hunks : List Hunk) (before after : List Statement)
    (side : Side) :
    (collect m hunks before after).on side =
      texts (side.pick before after)
        (selected m side (ChangedLine.ofHunks hunks) (side.pick before after)) := by
  cases side <;> rfl

variable {m : Matching} {side : Side} {lines : List ChangedLine} {statements : List Statement}

theorem mem_selected {i : Int} :
    i ∈ selected m side lines statements ↔
      ∃ s ∈ statements, m.Touches side lines s ∧ s.index = i := by
  unfold selected Matching.Touches
  simp only [List.mem_flatMap, List.mem_filter, List.mem_map, Bool.and_eq_true,
    decide_eq_true_eq, Matching.selects_iff]
  constructor
  · rintro ⟨l, ⟨hl, hside, hcontent⟩, s, ⟨hs, hselects⟩, hindex⟩
    exact ⟨s, hs, ⟨l, hl, hside, hcontent, hselects⟩, hindex⟩
  · rintro ⟨s, hs, ⟨l, hl, hside, hcontent, hselects⟩, hindex⟩
    exact ⟨l, ⟨hl, hside, hcontent⟩, s, ⟨hs, hselects⟩, hindex⟩

/-- A statement that is touched has its text among the candidates. -/
theorem mem_texts_of_touches {s : Statement} (hs : s ∈ statements)
    (h : m.Touches side lines s) :
    s.text ∈ texts statements (selected m side lines statements) := by
  have hselected : s.index ∈ selected m side lines statements := mem_selected.2 ⟨s, hs, h, rfl⟩
  unfold texts
  rw [mem_distinct_filter]
  exact ⟨s, hs, List.contains_iff_mem.2 hselected, rfl⟩

/-- Statements are selected by their indexes, so no two of them may share one. -/
theorem contains_selected_iff (hindex : (statements.map Statement.index).Nodup) {s : Statement}
    (hs : s ∈ statements) :
    (selected m side lines statements).contains s.index = true ↔ m.Touches side lines s := by
  rw [List.contains_iff_mem, mem_selected]
  constructor
  · rintro ⟨u, hu, htouches, hus⟩
    exact List.inj_on_of_nodup_map hindex hu hs hus ▸ htouches
  · intro h
    exact ⟨s, hs, h, rfl⟩

theorem listsInOrder_texts (hindex : (statements.map Statement.index).Nodup) :
    ListsInOrder (fun s t => m.Touches side lines s ∧ s.text = t) statements
      (texts statements (selected m side lines statements)) := by
  refine (listsInOrder_distinct _ Statement.text statements).congr ?_
  intro s hs t
  rw [contains_selected_iff hindex hs]

/-! ## Cancelling -/

theorem mem_unchanged_iff {c : Candidates} {t : Text} :
    t ∈ c.unchanged ↔ t ∈ c.on .before ∧ t ∈ c.on .after := by
  unfold unchanged
  rw [List.mem_filter, List.contains_iff_mem]
  rfl

/-- A candidate of one side that does not cancel out is left. -/
theorem mem_on_cancel {c : Candidates} {t : Text} (h : t ∈ c.on side) (hkept : t ∉ c.unchanged) :
    t ∈ c.cancel.on side := by
  rw [mem_unchanged_iff] at hkept
  cases side with
  | before =>
    have hafter : t ∉ c.after := fun h' => hkept ⟨h, h'⟩
    exact List.mem_filter.2 ⟨h, by simpa using hafter⟩
  | after =>
    have hbefore : t ∉ c.before := fun h' => hkept ⟨h', h⟩
    exact List.mem_filter.2 ⟨h, by simpa using hbefore⟩

theorem pick_pair (c : Candidates) (side : Side) :
    side.pick c.pair.before c.pair.after = (c.on side).flatten.dropWhile (· = '\n') := by
  cases side <;> rfl

end Candidates

namespace Correlation

def leftOver (old new : List Text) : SnippetPair where
  before := (old.filter (· ∉ new)).flatten.dropWhile (· = '\n')
  after := (new.filter (· ∉ old)).flatten.dropWhile (· = '\n')

theorem pair_cancel (c : Candidates) : c.cancel.pair = leftOver c.before c.after := by
  have hfilter : ∀ l other : List Text,
      (l.filter fun t => !other.contains t) = l.filter (· ∉ other) := by
    intro l other
    refine List.filter_congr fun t _ => ?_
    simp
  unfold Candidates.pair Candidates.cancel leftOver
  rw [hfilter, hfilter]

/-- The outcome of a file whose changed lines are `lines`.  A missing list of statements counts
first, the one of the version before the change before the other, and then a rejected header; in
either case there is no pair.  Else there is no diagnostic, and the touched texts of either side
that are not touched on the other one make the pair, unless nothing is left of both. -/
inductive Reduces (m : Matching) (path diff : Text) (lines : List ChangedLine) :
    Option (List Statement) → Option (List Statement) → Outcome → Prop where
  | noBefore (after? : Option (List Statement)) :
    Reduces m path diff lines none after? ⟨path, [], [⟨.missingContent, path,
      "No syntax tree available for the before version".toList, none⟩]⟩
  | noAfter (before : List Statement) :
    Reduces m path diff lines (some before) none ⟨path, [], [⟨.missingContent, path,
      "No syntax tree available for the after version".toList, none⟩]⟩
  | rejected (before after : List Statement) (hrejected : Diff.rejectedHeaders diff ≠ []) :
    Reduces m path diff lines (some before) (some after) ⟨path, [],
      (Diff.rejectedHeaders diff).map fun r => ⟨.parseError, path, r.message, none⟩⟩
  | compared {before after : List Statement} {old new : List Text}
    (hread : Diff.rejectedHeaders diff = [])
    (hold : ListsInOrder (fun s t => m.Touches .before lines s ∧ s.text = t) before old)
    (hnew : ListsInOrder (fun s t => m.Touches .after lines s ∧ s.text = t) after new) :
    Reduces m path diff lines (some before) (some after)
      ⟨path, [leftOver old new].filter fun pair => !pair.isEmpty, []⟩

section

variable {m : Matching} {path diff : Text} {parsed : Diff.Parsed}

theorem Reduces.unique {lines : List ChangedLine} {before? after? : Option (List Statement)}
    {o o' : Outcome} (h : Reduces m path diff lines before? after? o)
    (h' : Reduces m path diff lines before? after? o') : o' = o := by
  cases h with
  | noBefore => cases h'; rfl
  | noAfter => cases h'; rfl
  | rejected before after hrejected =>
    cases h' with
    | rejected => rfl
    | compared hread => exact absurd hread hrejected
  | compared hread hold hnew =>
    cases h' with
    | rejected before after hrejected => exact absurd hread hrejected
    | compared _ hold' hnew' => rw [hold.unique hold', hnew.unique hnew']

theorem correlate_of_rejected (hparse : Diff.parse diff = .ok parsed)
    (hrejected : Diff.rejectedHeaders diff ≠ []) (before after : List Statement) :
    correlate m path diff (some before) (some after) =
      .ok ⟨path, [], (Diff.rejectedHeaders diff).map (Diagnostic.ofRejection path)⟩ := by
  have hempty : parsed.rejections.isEmpty = false := by
    rw [Diff.rejections_of_parse hparse]
    simpa using hrejected
  unfold correlate
  simp only [hparse, Except.bind, bind, hempty, Bool.false_eq_true, if_false]
  rw [Diff.rejections_of_parse hparse]
  rfl

/-- Nothing but the candidates decides on the pair once the diff is read. -/
theorem correlate_of_read (hparse : Diff.parse diff = .ok parsed)
    (hread : Diff.rejectedHeaders diff = []) (before after : List Statement) :
    correlate m path diff (some before) (some after) = .ok ⟨path,
      [(Candidates.collect m parsed.hunks before after).cancel.pair].filter
        fun pair => !pair.isEmpty, []⟩ := by
  have hempty : parsed.rejections.isEmpty = true := by
    rw [Diff.rejections_of_parse hparse, hread]
    rfl
  unfold correlate
  simp only [hparse, Except.bind, bind, hempty, if_true, List.filter_cons, List.filter_nil]
  cases (Candidates.collect m parsed.hunks before after).cancel.pair.isEmpty <;> rfl

theorem correlate_reduces {before? after? : Option (List Statement)}
    (hparse : Diff.parse diff = .ok parsed)
    (hbefore : ∀ before, before? = some before → (before.map Statement.index).Nodup)
    (hafter : ∀ after, after? = some after → (after.map Statement.index).Nodup) :
    ∃ outcome, correlate m path diff before? after? = .ok outcome ∧
      ∀ o, Reduces m path diff (ChangedLine.ofHunks parsed.hunks) before? after? o ↔
        o = outcome := by
  -- One outcome that is found and is as it should be, as there is no other one.
  suffices h : ∃ outcome, correlate m path diff before? after? = .ok outcome ∧
      Reduces m path diff (ChangedLine.ofHunks parsed.hunks) before? after? outcome by
    obtain ⟨outcome, hfound, hreduces⟩ := h
    refine ⟨outcome, hfound, fun o => ⟨fun h => hreduces.unique h, ?_⟩⟩
    rintro rfl
    exact hreduces
  cases before? with
  | none => exact ⟨_, rfl, .noBefore after?⟩
  | some before =>
    cases after? with
    | none => exact ⟨_, rfl, .noAfter before⟩
    | some after =>
      by_cases hread : Diff.rejectedHeaders diff = []
      · refine ⟨_, correlate_of_read hparse hread before after, ?_⟩
        rw [pair_cancel]
        exact .compared hread (Candidates.listsInOrder_texts (hbefore before rfl))
          (Candidates.listsInOrder_texts (hafter after rfl))
      · exact ⟨_, correlate_of_rejected hparse hread before after, .rejected before after hread⟩

end

/-! ## Statements out of order

The deleted lines find the statements against their order, two statements have one text, the
indexes do not count up, and one text is touched on both sides. -/

namespace OutOfOrder

def diff : Text := "@@ -1,3 +1,2 @@\n-q = 3\n-x = 1\n-)\n+x = 1\n+z = 4\n".toList

def before : List Statement :=
  [⟨7, "a".toList, "x = 1;".toList, 1, 1⟩, ⟨2, "a".toList, "\ny = x = 1;".toList, 2, 2⟩,
    ⟨9, "a".toList, "\nq = 3;".toList, 3, 3⟩, ⟨5, "a".toList, "x = 1;".toList, 4, 4⟩]

def after : List Statement :=
  [⟨0, "a".toList, "x = 1;".toList, 1, 1⟩, ⟨4, "a".toList, "\n\nz = 4;\n)".toList, 2, 5⟩]

end OutOfOrder

theorem correlate_reduces_outOfOrder :
    ∃ parsed, Diff.parse OutOfOrder.diff = .ok parsed ∧
      (OutOfOrder.before.map Statement.index).Nodup ∧
      (OutOfOrder.after.map Statement.index).Nodup ∧
      correlate .substring "f".toList OutOfOrder.diff (some OutOfOrder.before)
          (some OutOfOrder.after) =
        .ok ⟨"f".toList, [⟨"y = x = 1;\nq = 3;".toList, "z = 4;\n)".toList⟩], []⟩ ∧
      ∀ o, Reduces .substring "f".toList OutOfOrder.diff (ChangedLine.ofHunks parsed.hunks)
          (some OutOfOrder.before) (some OutOfOrder.after) o ↔
        o = ⟨"f".toList, [⟨"y = x = 1;\nq = 3;".toList, "z = 4;\n)".toList⟩], []⟩ := by
  have hparse : Diff.parse OutOfOrder.diff = .ok ⟨[⟨"@@ -1,3 +1,2 @@".toList, ⟨1, 3⟩, ⟨1, 2⟩,
      OutOfOrder.diff⟩], []⟩ := by rfl
  have hbefore : (OutOfOrder.before.map Statement.index).Nodup := by decide
  have hafter : (OutOfOrder.after.map Statement.index).Nodup := by decide
  have hfound : correlate .substring "f".toList OutOfOrder.diff (some OutOfOrder.before)
      (some OutOfOrder.after) =
        .ok ⟨"f".toList, [⟨"y = x = 1;\nq = 3;".toList, "z = 4;\n)".toList⟩], []⟩ := by rfl
  obtain ⟨outcome, hcorrelate, hreduces⟩ := @correlate_reduces .substring "f".toList _ _
    (some OutOfOrder.before) (some OutOfOrder.after) hparse
    (fun _ h => Option.some.inj h ▸ hbefore) (fun _ h => Option.some.inj h ▸ hafter)
  obtain rfl : _ = outcome := Except.ok.inj (hfound.symm.trans hcorrelate)
  exact ⟨_, hparse, hbefore, hafter, hfound, hreduces⟩

end Correlation
end ChangePairs
