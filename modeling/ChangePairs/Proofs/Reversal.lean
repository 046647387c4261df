import ChangePairs.Proofs.Correlation
import ChangePairs.Proofs.Diff.Inverse
import ChangePairs.Proofs.Snapshot.Slicing

/-!
The change back.  The hunks of the change from one version to another, each turned around, are
those of the change from the second version to the first.  Both reductions see this: what they
find is the same with its sides exchanged (`reductions_inverse`).

A hunk of which neither range fits is reported for its old range, and turned around for what was
its new one.  So there are two reports to be made on it, and either of them may hold a number that
cannot be written.
-/

namespace ChangePairs

def SnippetPair.swap (p : SnippetPair) : SnippetPair := ⟨p.after, p.before⟩

def Candidates.swap (c : Candidates) : Candidates := ⟨c.after, c.before⟩

/-! ## Hunk by hunk -/

namespace Snapshot

/-- One of the ranges of the hunk, or both, do not fit versions of so many lines. -/
def IsMisfit (before after : Nat) (h : Hunk) : Prop := Misfits before h.old ∨ Misfits after h.new

instance (before after : Nat) : DecidablePred (IsMisfit before after) :=
  fun h => inferInstanceAs (Decidable (Misfits before h.old ∨ Misfits after h.new))

/-- The numbers of every range of the hunk that does not fit can be written. -/
def IsReportable (before after : Nat) (h : Hunk) : Prop :=
  ∀ side : Side, Misfits (side.pick before after) (h.range side) → IsWritable (h.range side)

/-- A diagnostic that reports the hunk. -/
structure IsReportOn (path : Text) (h : Hunk) (d : Diagnostic) : Prop where
  kind : d.kind = .parseError
  path : d.path = path
  header : d.hunkHeader = some h.header

section

variable {path : Text} {before after : List Text} {h : Hunk}

theorem isReportOn_report (path : Text) (h : Hunk) (side : Side) (r : LineRange) (total : Nat) :
    IsReportOn path h (report path h.header side r total) :=
  ⟨rfl, rfl, rfl⟩

theorem isReportable_of_slices {r r' : Except Diagnostic SnippetPair}
    (hr : Slices path before after h r) (hr' : Slices path after before h.inverse r') :
    IsReportable before.length after.length h := by
  intro side
  cases side with
  | before =>
    intro hmisfits
    cases hr with
    | pair old => exact absurd hmisfits (not_misfits_of_take? old)
    | old _ writable => exact writable
    | new fits => exact absurd hmisfits fits
  | after =>
    intro hmisfits
    cases hr' with
    | pair old => exact absurd hmisfits (not_misfits_of_take? old)
    | old _ writable => exact writable
    | new fits => exact absurd hmisfits fits

/-- What a hunk and its inverse are sliced into: a pair and the pair with its sides exchanged, or
two reports on the hunk. -/
inductive Mirrors (path : Text) (before after : Nat) (h : Hunk) :
    Except Diagnostic SnippetPair → Except Diagnostic SnippetPair → Prop where
  | pair (p : SnippetPair) (fits : ¬ IsMisfit before after h) :
    Mirrors path before after h (.ok p) (.ok p.swap)
  | report {d d' : Diagnostic} (misfit : IsMisfit before after h) (forth : IsReportOn path h d)
    (back : IsReportOn path h d') : Mirrors path before after h (.error d) (.error d')

theorem exists_mirrors (path : Text)
    (hreport : IsReportable before.length after.length h) :
    ∃ r r', Slices path before after h r ∧ Slices path after before h.inverse r' ∧
      Mirrors path before.length after.length h r r' := by
  have hforth := isReportOn_report path h
  -- Forth the old range is reported if it can be, and back the new one.
  by_cases hold : Misfits before.length h.old
  · have hwritable : IsWritable h.old := hreport .before hold
    by_cases hnew : Misfits after.length h.new
    · exact ⟨_, _, .old hold hwritable, .old hnew (hreport .after hnew),
        .report (.inl hold) (hforth ..) (hforth ..)⟩
    · exact ⟨_, _, .old hold hwritable, .new hnew hold hwritable,
        .report (.inl hold) (hforth ..) (hforth ..)⟩
  · by_cases hnew : Misfits after.length h.new
    · have hwritable : IsWritable h.new := hreport .after hnew
      exact ⟨_, _, .new hold hnew hwritable, .old hnew hwritable,
        .report (.inr hnew) (hforth ..) (hforth ..)⟩
    · obtain ⟨b, hb⟩ := exists_take?_of_not_misfits hold
      obtain ⟨a, ha⟩ := exists_take?_of_not_misfits hnew
      exact ⟨_, _, .pair hb ha, .pair ha hb, .pair ⟨b, a⟩ (not_or_intro hold hnew)⟩

/-- What a list of hunks and the list of their inverses are sliced into. -/
structure ListsMirror (path : Text) (before after : Nat) (hunks : List Hunk)
    (found found' : List SnippetPair × List Diagnostic) : Prop where
  pairs : found'.1 = found.1.map SnippetPair.swap
  forth : List.Forall₂ (IsReportOn path) (hunks.filter (IsMisfit before after)) found.2
  back : List.Forall₂ (IsReportOn path) (hunks.filter (IsMisfit before after)) found'.2

theorem listsMirror_cons {hunks : List Hunk} {r r' : Except Diagnostic SnippetPair}
    {rs rs' : List (Except Diagnostic SnippetPair)}
    (h₁ : Mirrors path before.length after.length h r r')
    (h₂ : ListsMirror path before.length after.length hunks (gather rs) (gather rs')) :
    ListsMirror path before.length after.length (h :: hunks) (gather (r :: rs))
      (gather (r' :: rs')) := by
  rw [gather_cons, gather_cons]
  cases h₁ with
  | report misfit forth back =>
    refine ⟨h₂.pairs, ?_, ?_⟩
    · rw [List.filter_cons_of_pos (by simpa using misfit)]
      exact .cons forth h₂.forth
    · rw [List.filter_cons_of_pos (by simpa using misfit)]
      exact .cons back h₂.back
  | pair p fits =>
    have hfilter : (h :: hunks).filter (IsMisfit before.length after.length) =
        hunks.filter (IsMisfit before.length after.length) :=
      List.filter_cons_of_neg (by simpa using fits)
    have hempty : p.swap.isEmpty = p.isEmpty := Bool.and_comm ..
    refine ⟨?_, by rw [hfilter]; exact h₂.forth, by rw [hfilter]; exact h₂.back⟩
    dsimp only
    rw [hempty, h₂.pairs]
    cases p.isEmpty <;> rfl

theorem exists_listsMirror (path : Text) {hunks : List Hunk}
    (hreport : ∀ h ∈ hunks, IsReportable before.length after.length h) :
    ∃ rs rs', List.Forall₂ (Slices path before after) hunks rs ∧
      List.Forall₂ (Slices path after before) (hunks.map Hunk.inverse) rs' ∧
      ListsMirror path before.length after.length hunks (gather rs) (gather rs') := by
  induction hunks with
  | nil => exact ⟨[], [], .nil, .nil, rfl, .nil, .nil⟩
  | cons h hunks ih =>
    obtain ⟨rs, rs', hrs, hrs', hmirror⟩ := ih fun x hx => hreport x (List.mem_cons_of_mem h hx)
    obtain ⟨r, r', hr, hr', hfirst⟩ := exists_mirrors path (hreport h List.mem_cons_self)
    exact ⟨r :: rs, r' :: rs', .cons hr hrs, .cons hr' hrs', listsMirror_cons hfirst hmirror⟩

theorem isReportable_of_forall₂ {hunks : List Hunk} {rs rs' : List (Except Diagnostic SnippetPair)}
    (hrs : List.Forall₂ (Slices path before after) hunks rs)
    (hrs' : List.Forall₂ (Slices path after before) (hunks.map Hunk.inverse) rs') :
    ∀ h ∈ hunks, IsReportable before.length after.length h := by
  induction hrs generalizing rs' with
  | nil => simp
  | cons hr _ ih =>
    cases hrs' with
    | cons hr' hrs' =>
      rw [List.forall_mem_cons]
      exact ⟨isReportable_of_slices hr hr', ih hrs'⟩

end

end Snapshot

/-! ## By statements -/

namespace Candidates

theorem selected_swap (m : Matching) (side : Side) (lines : List ChangedLine)
    (statements : List Statement) :
    selected m side.opposite (lines.map ChangedLine.swap) statements =
      selected m side lines statements := by
  have hside : ∀ l : ChangedLine, decide (l.swap.side = side.opposite) = decide (l.side = side) :=
    fun l => decide_eq_decide.2 Side.eq_opposite_iff
  have hselects : ∀ (l : ChangedLine) (s : Statement), m.selects l.swap s = m.selects l s := by
    intro l s
    cases m <;> rfl
  unfold selected
  rw [List.filter_map, List.flatMap_map]
  simp only [Function.comp_def, hside, funext (hselects _)]
  rfl

theorem collect_inverse (m : Matching) (hunks : List Hunk) (before after : List Statement) :
    collect m (hunks.map Hunk.inverse) after before = (collect m hunks before after).swap := by
  have hbefore := selected_swap m .before (ChangedLine.ofHunks hunks) before
  have hafter := selected_swap m .after (ChangedLine.ofHunks hunks) after
  unfold collect swap
  rw [ChangedLine.ofHunks_inverse]
  simp only [← hbefore, ← hafter]
  rfl

theorem cancel_swap (c : Candidates) : c.swap.cancel = c.cancel.swap := rfl

/-- The texts that cancel out are a set, and each of them stands once on either side. -/
theorem unchanged_swap {c : Candidates} (hbefore : c.before.Nodup) (hafter : c.after.Nodup) :
    c.swap.unchanged.Perm c.unchanged := by
  have hnodup : c.unchanged.Nodup := hbefore.sublist List.filter_sublist
  have hnodup' : c.swap.unchanged.Nodup := hafter.sublist List.filter_sublist
  rw [List.perm_ext_iff_of_nodup hnodup' hnodup]
  intro t
  rw [mem_unchanged_iff, mem_unchanged_iff]
  exact and_comm

end Candidates

/-! ## Both reductions -/

open Snapshot in
/-- The change back gives the same as the change with the sides exchanged.  Hunk by hunk, this
holds if and only if the numbers of every range that does not fit can be written. -/
theorem reductions_inverse (hunks : List Hunk) (path before after : Text) (m : Matching)
    (olds news : List Statement) :
    let found := Candidates.collect m hunks olds news
    let found' := Candidates.collect m (hunks.map Hunk.inverse) news olds
    ((∃ o o', sliceFile path before after hunks = .ok o ∧
        sliceFile path after before (hunks.map Hunk.inverse) = .ok o' ∧
        ListsMirror path (Text.lines before).length (Text.lines after).length hunks
          (o.pairs, o.diagnostics) (o'.pairs, o'.diagnostics)) ↔
      ∀ h ∈ hunks, IsReportable (Text.lines before).length (Text.lines after).length h) ∧
    found' = found.swap ∧ found'.unchanged.Perm found.unchanged ∧
      found'.cancel = found.cancel.swap := by
  dsimp only
  constructor
  · constructor
    · rintro ⟨o, o', ho, ho', -⟩
      obtain ⟨rs, hrs, -⟩ := sliceFile_eq_ok_iff.1 ho
      obtain ⟨rs', hrs', -⟩ := sliceFile_eq_ok_iff.1 ho'
      exact isReportable_of_forall₂ hrs hrs'
    · intro hreport
      obtain ⟨rs, rs', hrs, hrs', hmirror⟩ := exists_listsMirror path hreport
      exact ⟨_, _, sliceFile_eq_ok_iff.2 ⟨rs, hrs, rfl⟩, sliceFile_eq_ok_iff.2 ⟨rs', hrs', rfl⟩,
        hmirror⟩
  · have hnodup : ∀ side, ((Candidates.collect m hunks olds news).on side).Nodup := by
      intro side
      rw [Candidates.on_collect]
      exact nodup_distinct _
    rw [Candidates.collect_inverse]
    exact ⟨rfl, Candidates.unchanged_swap (hnodup .before) (hnodup .after),
      Candidates.cancel_swap _⟩

namespace Snapshot

/-- The old range ends at a line whose number cannot be written, and the new one can be reported
in an empty version. -/
def farHunk : Hunk where
  header := "@@".toList
  old := ⟨tooLarge - 1, 2⟩
  new := ⟨1, 1⟩
  text := "@@\n-a\n+b\n".toList

theorem sliceFile_farHunk :
    (0 ≤ farHunk.old.count ∧ 0 ≤ farHunk.new.count) ∧
      (¬ ∃ o, sliceFile "f".toList [] [] [farHunk] = .ok o) ∧
      ∃ d, sliceFile "f".toList [] [] ([farHunk].map Hunk.inverse) = .ok ⟨"f".toList, [], [d]⟩ := by
  have hlarge := one_lt_tooLarge
  have hstop : farHunk.old.stop = tooLarge := by
    unfold LineRange.stop farHunk
    dsimp only
    omega
  have hold : Misfits ([] : List Text).length farHunk.old := by
    refine ⟨by decide, .inr ?_⟩
    rw [hstop]
    show (0 : Int) < tooLarge
    omega
  have hnew : Misfits ([] : List Text).length farHunk.new := by decide
  have hwritable : IsWritable farHunk.new := ⟨hlarge, hlarge⟩
  refine ⟨by decide, ?_, ?_⟩
  · rintro ⟨o, ho⟩
    obtain ⟨rs, hrs, -⟩ := sliceFile_eq_ok_iff.1 ho
    cases hrs with
    | cons hr =>
      cases hr with
      | pair old => exact not_misfits_of_take? old hold
      | old _ writable =>
        have hlt := writable.stop
        rw [hstop, Int.natAbs_natCast] at hlt
        exact Nat.lt_irrefl _ hlt
      | new fits => exact fits hold
  · exact ⟨_, sliceFile_eq_ok_iff.2 ⟨_, .cons (.old hnew hwritable) .nil, rfl⟩⟩

end Snapshot
end ChangePairs
