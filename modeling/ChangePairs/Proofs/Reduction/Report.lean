import ChangePairs.Proofs.Reduction.Hunkless
import ChangePairs.Proofs.Reduction.Outcome

/-!
What becomes of the reports on rejected headers.  They are there as soon as the diff is parsed, and
from then on a file can go three ways: no hunk is left, a version cannot be had, or the hunks are
sliced.  The first and the last way keep the reports, and a range that does not fit adds one of
another kind.  A file without a version gets an outcome of its own, which has none of them.

The main statement, `reduceFile_reports`, says when every rejected header is reported, and that
nothing but a missing version leaves out a report.
-/

namespace ChangePairs

/-- The reports on rejected headers among the diagnostics: parse errors that belong to no hunk. -/
def Outcome.headerReports (o : Outcome) : List Diagnostic :=
  o.diagnostics.filter fun d => d.kind = .parseError ∧ d.hunkHeader = none

/-- Every rejected header is reported once, in the order of the diff. -/
def Outcome.ReportsHeaders (path : Path) (parsed : Diff.Parsed) (o : Outcome) : Prop :=
  o.headerReports = parsed.rejections.map (Diagnostic.ofRejection path)

namespace Reduction

open Diff (Parsed)

section

variable {path : Path} {parsed : Parsed}

/-! ## The three ways -/

theorem filter_rejections (path : Path) (rejections : List Diff.Rejection) :
    ((rejections.map (Diagnostic.ofRejection path)).filter fun d =>
      d.kind = .parseError ∧ d.hunkHeader = none) =
        rejections.map (Diagnostic.ofRejection path) := by
  rw [List.filter_eq_self]
  intro d hd
  obtain ⟨r, -, rfl⟩ := List.mem_map.1 hd
  rfl

theorem reportsHeaders_hunkless (pairs : List SnippetPair) :
    Outcome.ReportsHeaders path parsed
      ⟨path, pairs, parsed.rejections.map (Diagnostic.ofRejection path)⟩ :=
  filter_rejections path parsed.rejections

theorem reportsHeaders_missing_iff {message : Text} :
    Outcome.ReportsHeaders path parsed (.missing path message) ↔ parsed.rejections = [] := by
  unfold Outcome.ReportsHeaders
  rw [eq_comm, ← List.map_eq_nil_iff (f := Diagnostic.ofRejection path)]
  rfl

/-- A report on a range names its hunk, so it is never taken for one on a header. -/
theorem headerReports_sliceFile {before after : Text} {hunks : List Hunk} {sliced : Outcome}
    (h : Snapshot.sliceFile path before after hunks = .ok sliced) : sliced.headerReports = [] := by
  obtain ⟨results, hresults, rfl⟩ := Snapshot.sliceFile_eq_ok_iff.1 h
  refine List.filter_eq_nil_iff.2 fun d hd => ?_
  obtain ⟨r, hr, hreport⟩ := List.mem_filterMap.1 hd
  cases r with
  | ok pair => nomatch hreport
  | error d' =>
    obtain rfl := Option.some.inj hreport
    obtain ⟨hunk, -, hslices⟩ := exists_of_forall₂ hresults.flip hr
    cases hslices with
    | old | new => simp [Snapshot.report]

theorem reportsHeaders_sliceFile {before after : Text} {sliced : Outcome}
    (h : Snapshot.sliceFile path before after parsed.hunks = .ok sliced) :
    Outcome.ReportsHeaders path parsed
      { sliced with
        diagnostics := parsed.rejections.map (Diagnostic.ofRejection path) ++
          sliced.diagnostics } := by
  have hranges := headerReports_sliceFile h
  unfold Outcome.ReportsHeaders Outcome.headerReports at *
  rw [List.filter_append, filter_rejections, hranges, List.append_nil]

end

/-! ## Every source -/

section

variable {σ : Type} {source : FileSource (StateM σ)} {plan : Plan} {path : Path} {diff : Text}
  {parsed : Parsed} {s s' : σ}

/-- Both versions are there, and what is to be said of their ranges can be written. -/
def CanSlice (source : FileSource (StateM σ)) (path : Path) (hunks : List Hunk) (s : σ) : Prop :=
  ∃ before after t, HasVersions source path s before after t ∧
    ∀ h ∈ hunks,
      ¬ Snapshot.IsUnreportable (Text.lines before).length (Text.lines after).length h

/-- What becomes of a file with hunks when its versions are there, or cannot be had. -/
def finish (path : Path) (parsed : Parsed) :
    Except Outcome (Text × Text) → Except DigitLimitExceeded Outcome
  | .error o => .ok o
  | .ok (before, after) =>
    (Snapshot.sliceFile path before after parsed.hunks).map fun sliced =>
      { sliced with
        diagnostics := parsed.rejections.map (Diagnostic.ofRejection path) ++ sliced.diagnostics }

/-- With a hunk left, the versions decide how it goes on. -/
theorem run_byHunks_of_hunks (hdiff : (source.diff path).run s = (.text diff, s'))
    (hparse : Diff.parse diff = .ok parsed) (hhunks : parsed.hunks ≠ [])
    {versions? : Except Outcome (Text × Text)} {t : σ}
    (hversions : (versions source path).run s' = (versions?, t)) :
    (byHunks source path).run s = (finish path parsed versions?, t) := by
  have hpure : (source.diff path).run s = pure (.text diff, s') := hdiff
  have hpure' : (versions source path).run s' = pure (versions?, t) := hversions
  have hempty : ¬ parsed.hunks.isEmpty = true := by simpa using hhunks
  unfold byHunks
  rw [StateT.run_bind, hpure, pure_bind]
  dsimp only
  rw [hparse]
  dsimp only
  rw [if_neg hempty, StateT.run_bind, hpure', pure_bind]
  rcases versions? with o | ⟨before, after⟩ <;> rfl

/-- A version that is missing leaves an outcome of its own, whatever has been reported so far. -/
theorem run_byHunks_of_missing (hdiff : (source.diff path).run s = (.text diff, s'))
    (hparse : Diff.parse diff = .ok parsed) (hhunks : parsed.hunks ≠ [])
    (hversions : ¬ ∃ before after t, HasVersions source path s' before after t) :
    ∃ message t, (byHunks source path).run s = (.ok (.missing path message), t) := by
  obtain ⟨message, t, hmissing⟩ := run_versions_of_not hversions
  exact ⟨message, t, run_byHunks_of_hunks hdiff hparse hhunks hmissing⟩

theorem run_byHunks_of_versions {before after : Text} {t : σ}
    (hdiff : (source.diff path).run s = (.text diff, s'))
    (hparse : Diff.parse diff = .ok parsed) (hhunks : parsed.hunks ≠ [])
    (hversions : HasVersions source path s' before after t) :
    (byHunks source path).run s = (finish path parsed (.ok (before, after)), t) :=
  run_byHunks_of_hunks hdiff hparse hhunks hversions.run_versions

theorem canSlice_iff {before after : Text} {t : σ} {hunks : List Hunk}
    (hversions : HasVersions source path s before after t) :
    CanSlice source path hunks s ↔ ∀ h ∈ hunks,
      ¬ Snapshot.IsUnreportable (Text.lines before).length (Text.lines after).length h := by
  constructor
  · rintro ⟨before', after', t', hversions', hall⟩
    obtain ⟨rfl, rfl, rfl⟩ := hversions.unique hversions'
    exact hall
  · exact fun hall => ⟨before, after, t, hversions, hall⟩

/-- With both versions, the reports are kept whenever there is an outcome. -/
theorem exists_run_byHunks_iff {before after : Text} {t : σ}
    (hdiff : (source.diff path).run s = (.text diff, s'))
    (hparse : Diff.parse diff = .ok parsed) (hhunks : parsed.hunks ≠ [])
    (hversions : HasVersions source path s' before after t) :
    ((∃ o t, (byHunks source path).run s = (.ok o, t)) ↔
      CanSlice source path parsed.hunks s') ∧
    ∀ o t, (byHunks source path).run s = (.ok o, t) → o.ReportsHeaders path parsed := by
  have hplaced := Snapshot.isPlaced_of_mem_hunks hparse
  rw [run_byHunks_of_versions hdiff hparse hhunks hversions, canSlice_iff hversions, finish]
  cases hsliced : Snapshot.sliceFile path before after parsed.hunks with
  | error e =>
    have hfails := (Snapshot.fails_sliceFile_iff hplaced).1 ⟨e, hsliced⟩
    refine ⟨iff_of_false ?_ (by simpa using hfails), nofun⟩
    rintro ⟨o, t, ⟨⟩⟩
  | ok sliced =>
    have hfits := mt (Snapshot.fails_sliceFile_iff hplaced).2 (hsliced ▸ not_fails_ok sliced)
    refine ⟨iff_of_true ⟨_, t, rfl⟩ (by simpa using hfits), ?_⟩
    rintro o t ⟨⟩
    exact reportsHeaders_sliceFile hsliced

/-- Every rejected header is reported if no hunk is left or all hunks can be sliced.  Otherwise a
version is missing and the reports are lost, if there are any, or a range that does not fit has a
number that cannot be written and there is no outcome. -/
theorem reduceFile_reports (hplan : plan.strategy = .hunks)
    (hdiff : (source.diff path).run s = (.text diff, s'))
    (hparse : Diff.parse diff = .ok parsed) :
    ((∃ o t, (reduceFile source plan path).run s = (.ok o, t) ∧ o.ReportsHeaders path parsed) ↔
      parsed.hunks = [] ∨ CanSlice source path parsed.hunks s' ∨
        parsed.rejections = [] ∧ ¬ ∃ before after t, HasVersions source path s' before after t) ∧
    ∀ o t, (reduceFile source plan path).run s = (.ok o, t) →
      o.ReportsHeaders path parsed ∨ ∃ message, o = .missing path message := by
  rw [reduceFile_hunks hplan]
  by_cases hhunks : parsed.hunks = []
  · have hrun := run_byHunks_hunkless hdiff hparse hhunks
    have hreports : Outcome.ReportsHeaders path parsed ⟨path, [], _⟩ := reportsHeaders_hunkless []
    refine ⟨iff_of_true ⟨_, s', hrun, hreports⟩ (.inl hhunks), fun o t ho => .inl ?_⟩
    obtain ⟨ho, -⟩ := Prod.mk.inj (hrun.symm.trans ho)
    exact Except.ok.inj ho ▸ hreports
  rw [or_iff_right hhunks]
  by_cases hversions : ∃ before after t, HasVersions source path s' before after t
  · rw [or_iff_left (fun h => h.2 hversions)]
    obtain ⟨before, after, t, hversions⟩ := hversions
    obtain ⟨hiff, hall⟩ := exists_run_byHunks_iff hdiff hparse hhunks hversions
    refine ⟨?_, fun o t ho => .inl (hall o t ho)⟩
    rw [← hiff]
    exact exists_congr fun o => exists_congr fun t => and_iff_left_of_imp (hall o t)
  · have hslice : ¬ CanSlice source path parsed.hunks s' :=
      fun ⟨before, after, t, h, _⟩ => hversions ⟨before, after, t, h⟩
    obtain ⟨message, t, hrun⟩ := run_byHunks_of_missing hdiff hparse hhunks hversions
    rw [or_iff_right hslice, and_iff_left hversions, hrun, ← reportsHeaders_missing_iff]
    constructor
    · constructor
      · rintro ⟨o, t, ⟨⟩, hreports⟩
        exact hreports
      · exact fun hreports => ⟨_, t, rfl, hreports⟩
    · rintro o t ⟨⟩
      exact .inr ⟨message, rfl⟩

end

/-! ## A rejected header before a hunk

The source answers as it is told when it is asked for a version. -/

namespace Halved

def diff : Text := "@@ -x +1 @@\n-q\n@@ -1 +1 @@\n-a\n+b\n".toList

def path : Path := "a.ts".toList

def source (before after : Answer) : FileSource (StateM Unit) where
  diff _ := return .text diff
  version side _ := return side.pick before after
  nodes _ _ _ _ := return none

def parsed : Parsed where
  hunks := [⟨"@@ -1 +1 @@".toList, ⟨1, 1⟩, ⟨1, 1⟩, "@@ -1 +1 @@\n-a\n+b\n".toList⟩]
  rejections := [⟨"@@ -x +1 @@".toList, .nonNumeric ['x']⟩]

theorem parse_diff : Diff.parse diff = .ok parsed := rfl

def result (before after : Answer) : Except DigitLimitExceeded Outcome :=
  ((reduceFile (source before after) ⟨.hunks, .position, 4⟩ path).run ()).1

end Halved

theorem reduceFile_reports_halved :
    Diff.parse Halved.diff = .ok Halved.parsed ∧
      ∃ o t, (reduceFile (Halved.source (.text "a\n".toList) (.text "b\n".toList))
        ⟨.hunks, .position, 4⟩ Halved.path).run () = (.ok o, t) ∧
          o.ReportsHeaders Halved.path Halved.parsed := by
  refine ⟨Halved.parse_diff, (reduceFile_reports rfl rfl Halved.parse_diff).1.2 (.inr (.inl ?_))⟩
  refine ⟨_, _, (), ⟨(), rfl, rfl⟩, fun h hh => ?_⟩
  obtain rfl := List.mem_singleton.1 hh
  exact Snapshot.not_isUnreportable (by unfold Snapshot.Overruns; decide)
    (by unfold Snapshot.Overruns; decide)

/-- The report is lost with either version, whether it is unavailable or asking for it fails. -/
theorem not_reduceFile_reports_halved :
    Diff.parse Halved.diff = .ok Halved.parsed ∧ Halved.parsed.rejections ≠ [] ∧
      Halved.result .unavailable (.text "b\n".toList) =
        .ok (versionUnavailable Halved.path .before) ∧
      ¬ (versionUnavailable Halved.path .before).ReportsHeaders Halved.path Halved.parsed ∧
      Halved.result (.text "a\n".toList) (.failed "boom".toList) =
        .ok (sourceFailed Halved.path "boom".toList) ∧
      ¬ (sourceFailed Halved.path "boom".toList).ReportsHeaders Halved.path Halved.parsed := by
  have hrejected : Halved.parsed.rejections ≠ [] := List.cons_ne_nil _ _
  exact ⟨Halved.parse_diff, hrejected, rfl, mt reportsHeaders_missing_iff.1 hrejected, rfl,
    mt reportsHeaders_missing_iff.1 hrejected⟩

end Reduction
end ChangePairs
