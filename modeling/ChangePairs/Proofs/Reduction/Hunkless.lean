import ChangePairs.Proofs.Diff.Section
import ChangePairs.Proofs.Reduction.Hunks

/-!
Diffs without hunks: a change of mode, a notice about binary files, headers of files alone.  Hunk
by hunk such a diff is no change, before anything else is asked of the source.  By statements it is
no change if it is blank, and otherwise only once both versions and their nodes are there.

The main statement, `reduceFile_hunkless`, says what either strategy comes to, so that the two
agree if and only if the diff is blank or nothing is missing.
-/

namespace ChangePairs

/-- No line of the diff opens a hunk. -/
def Diff.IsHunkless (diff : Text) : Prop := ∀ l ∈ Text.lines diff, Header.opens l = false

theorem Diff.parse_hunkless {diff : Text} (h : IsHunkless diff) : parse diff = .ok .empty := by
  have hsections := sections_loose_append h []
  rw [List.append_nil] at hsections
  unfold parse
  rw [hsections]
  rfl

namespace Reduction

open Diff (IsHunkless)

section

variable {σ : Type} {source : FileSource (StateM σ)} {path : Path} {l : Language} {s s' : σ}

/-- Asked one after the other, the source has both versions. -/
def HasVersions (source : FileSource (StateM σ)) (path : Path) (s : σ) (before after : Text)
    (s' : σ) : Prop :=
  ∃ between, (source.version .before path).run s = (.text before, between) ∧
    (source.version .after path).run between = (.text after, s')

/-- The source has both versions, and then a parser finds the nodes of either. -/
def HasTrees (source : FileSource (StateM σ)) (path : Path) (l : Language) (s : σ) : Prop :=
  ∃ before after nodes nodes' s₁ s₂ s₃, HasVersions source path s before after s₁ ∧
    (source.nodes .before path l before).run s₁ = (some nodes, s₂) ∧
    (source.nodes .after path l after).run s₂ = (some nodes', s₃)

/-- The outcome of a file that did not change, or of one that lacks content, according to whether
something is missing. -/
def IsUnchangedIff (path : Path) (complete : Prop) (o : Outcome) : Prop :=
  complete ∧ o = ⟨path, [], []⟩ ∨ ¬ complete ∧ ∃ message, o = .missing path message

/-! ## Versions -/

theorem HasVersions.run_versions {before after : Text}
    (h : HasVersions source path s before after s') :
    (versions source path).run s = (.ok (before, after), s') := by
  obtain ⟨between, hbefore, hafter⟩ := h
  unfold versions
  rw [StateT.run_bind, hbefore]
  show StateT.run (source.version .after path >>= _) between = _
  rw [StateT.run_bind, hafter]
  rfl

/-- A source that is asked from the same state has the same versions. -/
theorem HasVersions.unique {before after before' after' : Text} {t : σ}
    (h : HasVersions source path s before after s') (h' : HasVersions source path s before' after' t) :
    before' = before ∧ after' = after ∧ t = s' := by
  obtain ⟨htexts, rfl⟩ := Prod.mk.inj (h.run_versions.symm.trans h'.run_versions)
  obtain ⟨rfl, rfl⟩ := Prod.mk.inj (Except.ok.inj htexts)
  exact ⟨rfl, rfl, rfl⟩

/-- Without both versions a file lacks content, however they come to be missing. -/
theorem run_versions_of_not
    (h : ¬ ∃ before after s', HasVersions source path s before after s') :
    ∃ message s', (versions source path).run s = (.error (.missing path message), s') := by
  unfold versions
  rcases hbefore : (source.version .before path).run s with ⟨b, between⟩
  rcases hafter : (source.version .after path).run between with ⟨a, s'⟩
  rw [StateT.run_bind, hbefore]
  cases b with
  | failed reason => exact ⟨_, between, rfl⟩
  | unavailable =>
    show ∃ message s', StateT.run (source.version .after path >>= _) between = _
    rw [StateT.run_bind, hafter]
    cases a with
    | failed reason => exact ⟨_, s', rfl⟩
    | unavailable => exact ⟨_, s', rfl⟩
    | text after => exact ⟨_, s', rfl⟩
  | text before =>
    show ∃ message s', StateT.run (source.version .after path >>= _) between = _
    rw [StateT.run_bind, hafter]
    cases a with
    | failed reason => exact ⟨_, s', rfl⟩
    | unavailable => exact ⟨_, s', rfl⟩
    | text after => exact absurd ⟨before, after, s', between, hbefore, hafter⟩ h

/-! ## Trees -/

theorem correlate_hunkless {matching : Matching} {diff : Text} (h : IsHunkless diff)
    (before after : List Statement) :
    Correlation.correlate matching path diff (some before) (some after) =
      .ok ⟨path, [], []⟩ := by
  have htexts : ∀ statements : List Statement, Candidates.texts statements [] = [] := by
    intro statements
    simp [Candidates.texts, distinct]
  have hcollect : Candidates.collect matching [] before after = ⟨[], []⟩ := by
    show Candidates.mk (Candidates.texts before []) (Candidates.texts after []) = _
    rw [htexts, htexts]
  unfold Correlation.correlate
  dsimp only
  rw [Diff.parse_hunkless h]
  show Except.ok (Outcome.mk path (if (Candidates.collect matching [] before after).cancel.pair
    |>.isEmpty then [] else _) []) = _
  rw [hcollect]
  rfl

theorem correlate_of_missing (path : Path) (matching : Matching) (diff : Text)
    {before? after? : Option (List Statement)} (h : before? = none ∨ after? = none) :
    ∃ message, Correlation.correlate matching path diff before? after? =
      .ok (.missing path message) := by
  unfold Correlation.correlate
  cases before? with
  | none => exact ⟨_, rfl⟩
  | some before =>
    cases after? with
    | none => exact ⟨_, rfl⟩
    | some after => simp at h

/-- Without hunks, it is only asked whether there are nodes for both versions. -/
theorem exists_correlate_hunkless {matching : Matching} {diff : Text} (h : IsHunkless diff)
    (before? after? : Option (List Statement)) :
    ∃ o, Correlation.correlate matching path diff before? after? = .ok o ∧
      IsUnchangedIff path (¬ (before? = none ∨ after? = none)) o := by
  by_cases hmissing : before? = none ∨ after? = none
  · obtain ⟨message, hmessage⟩ := correlate_of_missing path matching diff hmissing
    exact ⟨_, hmessage, .inr ⟨not_not_intro hmissing, message, rfl⟩⟩
  · have hboth := not_or.1 hmissing
    obtain ⟨before, rfl⟩ := Option.ne_none_iff_exists'.1 hboth.1
    obtain ⟨after, rfl⟩ := Option.ne_none_iff_exists'.1 hboth.2
    exact ⟨_, correlate_hunkless h before after, .inl ⟨hmissing, rfl⟩⟩

theorem run_statements {side : Side} {text : Text} {nodes? : Option (List Node)}
    (h : (source.nodes side path l text).run s = (nodes?, s')) :
    (statements source side path l text).run s = (nodes?.map (Statement.ofNodes text), s') := by
  unfold statements
  rw [StateT.run_bind, h]
  rfl

theorem hasTrees_iff {before after : Text} {b a : Option (List Node)} {s₁ s₂ s₃ : σ}
    (hversions : HasVersions source path s before after s₁)
    (hbefore : (source.nodes .before path l before).run s₁ = (b, s₂))
    (hafter : (source.nodes .after path l after).run s₂ = (a, s₃)) :
    HasTrees source path l s ↔ ¬ (b = none ∨ a = none) := by
  rw [not_or, ← ne_eq, ← ne_eq, Option.ne_none_iff_exists', Option.ne_none_iff_exists']
  constructor
  · rintro ⟨before', after', nodes, nodes', t₁, t₂, t₃, hversions', hbefore', hafter'⟩
    obtain ⟨rfl, rfl, rfl⟩ := hversions.unique hversions'
    obtain ⟨rfl, rfl⟩ := Prod.mk.inj (hbefore.symm.trans hbefore')
    obtain ⟨rfl, rfl⟩ := Prod.mk.inj (hafter.symm.trans hafter')
    exact ⟨⟨nodes, rfl⟩, ⟨nodes', rfl⟩⟩
  · rintro ⟨⟨nodes, rfl⟩, ⟨nodes', rfl⟩⟩
    exact ⟨before, after, nodes, nodes', s₁, s₂, s₃, hversions, hbefore, hafter⟩

/-- What follows once there is a diff.  Three things are asked for, one after the other, and the
outcome is settled by the first that is missing. -/
theorem exists_byStatements_hunkless {matching : Matching} {diff : Text}
    (hpath : Language.ofPath? path = some l) (hdiff : (source.diff path).run s = (.text diff, s'))
    (h : IsHunkless diff) :
    ∃ o t, (byStatements source matching path).run s = (.ok o, t) ∧
      IsUnchangedIff path (Text.allBlank diff = true ∨ HasTrees source path l s') o := by
  unfold byStatements
  rw [hpath]
  dsimp only
  rw [StateT.run_bind, hdiff]
  by_cases hblank : Text.allBlank diff = true
  · refine ⟨_, s', ?_, .inl ⟨.inl hblank, rfl⟩⟩
    show StateT.run (if Text.allBlank diff = true then _ else _) s' = _
    rw [if_pos hblank]
    rfl
  show ∃ o t, StateT.run (if Text.allBlank diff = true then _ else _) s' = _ ∧ _
  rw [if_neg hblank, or_iff_right hblank, StateT.run_bind]
  by_cases hversions : ∃ before after s₁, HasVersions source path s' before after s₁
  · obtain ⟨before, after, s₁, hversions⟩ := hversions
    rcases hbefore : (source.nodes .before path l before).run s₁ with ⟨b, s₂⟩
    rcases hafter : (source.nodes .after path l after).run s₂ with ⟨a, s₃⟩
    rw [hversions.run_versions]
    show ∃ o t, StateT.run (statements source .before path l before >>= _) s₁ = _ ∧ _
    rw [StateT.run_bind, run_statements hbefore]
    show ∃ o t, StateT.run (statements source .after path l after >>= _) s₂ = _ ∧ _
    rw [StateT.run_bind, run_statements hafter, hasTrees_iff hversions hbefore hafter]
    obtain ⟨o, hcorrelate, ho⟩ := exists_correlate_hunkless h
      (b.map (Statement.ofNodes before)) (a.map (Statement.ofNodes after))
    rw [Option.map_eq_none_iff, Option.map_eq_none_iff] at ho
    exact ⟨o, s₃, congrArg (·, s₃) hcorrelate, ho⟩
  · obtain ⟨message, s₁, hrun⟩ := run_versions_of_not hversions
    refine ⟨_, s₁, ?_, .inr ⟨?_, message, rfl⟩⟩
    · rw [hrun]
      rfl
    · rintro ⟨before, after, -, -, s₂, -, -, h, -, -⟩
      exact hversions ⟨before, after, s₂, h⟩

/-- Without hunks there are only the reports on rejected headers. -/
theorem run_byHunks_hunkless {diff : Text} {parsed : Diff.Parsed}
    (hdiff : (source.diff path).run s = (.text diff, s'))
    (hparse : Diff.parse diff = .ok parsed) (hhunks : parsed.hunks = []) :
    (byHunks source path).run s =
      (.ok ⟨path, [], parsed.rejections.map (Diagnostic.ofRejection path)⟩, s') := by
  have hpure : (source.diff path).run s = pure (.text diff, s') := hdiff
  unfold byHunks
  rw [StateT.run_bind, hpure, pure_bind]
  dsimp only
  rw [hparse]
  dsimp only
  rw [hhunks]
  rfl

/-- A diff without hunks is no change hunk by hunk, whatever else the source does.  By statements
it is no change either if it is blank or both versions and their nodes are there, and otherwise
the file lacks content. -/
theorem reduceFile_hunkless {diff : Text} (hpath : Language.ofPath? path = some l)
    (hdiff : (source.diff path).run s = (.text diff, s')) (h : IsHunkless diff) (plan : Plan) :
    (plan.strategy = .hunks →
      (reduceFile source plan path).run s = (.ok ⟨path, [], []⟩, s')) ∧
    (plan.strategy = .statements →
      ∃ o t, (reduceFile source plan path).run s = (.ok o, t) ∧
        IsUnchangedIff path (Text.allBlank diff = true ∨ HasTrees source path l s') o) := by
  constructor
  · intro hplan
    rw [reduceFile_hunks hplan]
    exact run_byHunks_hunkless hdiff (Diff.parse_hunkless h) rfl
  · intro hplan
    unfold reduceFile
    rw [hplan]
    exact exists_byStatements_hunkless hpath hdiff h

end

/-! ## A change of mode

The diff has no hunk, and the versions are there.  The nodes are there only the first time that
they are asked for. -/

namespace ChangedMode

def diff : Text := "old mode 100644\nnew mode 100755\n".toList

def source : FileSource (StateM Nat) where
  diff _ := return .text diff
  version _ _ := return .text ['a']
  nodes _ _ _ _ := do
    modify (· + 1)
    return if (← get) ≤ 2 then some [] else none

theorem isHunkless : IsHunkless diff := by
  unfold IsHunkless
  decide

def ending (strategy : Strategy) (asked : Nat) : Except DigitLimitExceeded Outcome × Nat :=
  (reduceFile source ⟨strategy, .position, 4⟩ "a.ts".toList).run asked

end ChangedMode

theorem reduceFile_hunkless_changedMode :
    IsHunkless ChangedMode.diff ∧
      ChangedMode.ending .hunks 0 = (.ok ⟨"a.ts".toList, [], []⟩, 0) ∧
      ChangedMode.ending .statements 0 = (.ok ⟨"a.ts".toList, [], []⟩, 2) ∧
      ¬ HasTrees ChangedMode.source "a.ts".toList .typescript 2 := by
  have hpath : Language.ofPath? "a.ts".toList = some .typescript := rfl
  have hdiff (asked : Nat) : (ChangedMode.source.diff "a.ts".toList).run asked =
    (.text ChangedMode.diff, asked) := rfl
  have hboth := fun (strategy : Strategy) (asked : Nat) =>
    reduceFile_hunkless hpath (hdiff asked) ChangedMode.isHunkless ⟨strategy, .position, 4⟩
  refine ⟨ChangedMode.isHunkless, (hboth .hunks 0).1 rfl, by decide, ?_⟩
  obtain ⟨o, t, hrun, ⟨-, rfl⟩ | hmissing⟩ := (hboth .statements 2).2 rfl
  · have hlacks : (ChangedMode.ending .statements 2).1 ≠ .ok ⟨"a.ts".toList, [], []⟩ := by decide
    exact absurd (congrArg Prod.fst hrun) hlacks
  · exact fun htrees => hmissing.1 (.inr htrees)

/-- By statements a change of mode is a failure where no parser can be had. -/
theorem not_reduceFile_hunkless_parserless :
    IsHunkless ChangedMode.diff ∧
      (reduceFile (FileSource.ofTexts ['a'] ['a'] ChangedMode.diff) ⟨.hunks, .position, 4⟩
        "a.ts".toList).run = .ok ⟨"a.ts".toList, [], []⟩ ∧
      (reduceFile (FileSource.ofTexts ['a'] ['a'] ChangedMode.diff) ⟨.statements, .position, 4⟩
        "a.ts".toList).run = .ok (.missing "a.ts".toList
          "No syntax tree available for the before version".toList) := by
  exact ⟨ChangedMode.isHunkless, rfl, rfl⟩

end Reduction
end ChangePairs
