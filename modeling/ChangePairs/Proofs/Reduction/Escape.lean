import ChangePairs.Collection
import ChangePairs.Proofs.Reduction.Hunks

/-!
Files that are left without an outcome.  A source may be silent or fail wherever it is asked, and
a file still has its outcome; only numbers with too many digits take it away, and with it the
outcomes of all files that are reduced in one run (`reduceFile_iff_not_escapes`).
-/

namespace ChangePairs
namespace Reduction

open Diff

/-- Hunk by hunk: the diff cannot be read, or both versions are there and a hunk that does not fit
cannot be reported. -/
def EscapesHunks (source : FileSource Id) (path : Path) (diff : Text) : Prop :=
  IsUnreadable diff ∨
    ∃ parsed before after, parse diff = .ok parsed ∧
      (source.version .before path).run = .text before ∧
      (source.version .after path).run = .text after ∧
      ∃ h ∈ parsed.hunks,
        Snapshot.IsUnreportable (Text.lines before).length (Text.lines after).length h

/-- By statements: everything is there, and the diff cannot be read. -/
def EscapesStatements (source : FileSource Id) (path : Path) (diff : Text) : Prop :=
  IsUnreadable diff ∧
    ∃ l before after, Language.ofPath? path = some l ∧
      (source.version .before path).run = .text before ∧
      (source.version .after path).run = .text after ∧
      (source.nodes .before path l before).run.isSome = true ∧
      (source.nodes .after path l after).run.isSome = true

def Escapes (source : FileSource Id) (plan : Plan) (path : Path) : Prop :=
  ∃ diff, (source.diff path).run = .text diff ∧
    match plan.strategy with
    | .hunks => EscapesHunks source path diff
    | .statements => EscapesStatements source path diff

variable {source : FileSource Id} {path : Path}

theorem versions_eq_ok_iff {before after : Text} :
    (versions source path).run = .ok (before, after) ↔
      (source.version .before path).run = .text before ∧
        (source.version .after path).run = .text after := by
  unfold versions
  generalize source.version .before path = b
  generalize source.version .after path = a
  dsimp only [Id.run, bind, pure]
  cases b with
  | failed reason => simp
  | unavailable | text t => cases a <;> simp

/-! ## Hunk by hunk -/

theorem fails_byHunks_of_parse {diff : Text} {parsed : Parsed}
    (hdiff : (source.diff path).run = .text diff) (hparse : parse diff = .ok parsed) :
    Fails (byHunks source path).run ↔
      ∃ before after, (versions source path).run = .ok (before, after) ∧
        ∃ h ∈ parsed.hunks,
          Snapshot.IsUnreportable (Text.lines before).length (Text.lines after).length h := by
  have hplaced := Snapshot.isPlaced_of_mem_hunks hparse
  unfold byHunks
  rw [Id.run_bind, hdiff]
  dsimp only
  rw [hparse]
  dsimp only
  by_cases hempty : parsed.hunks.isEmpty = true
  · rw [if_pos hempty]
    refine iff_of_false (not_fails_ok _) ?_
    rintro ⟨before, after, -, h, hh, -⟩
    rw [List.isEmpty_iff.1 hempty] at hh
    nomatch hh
  · rw [if_neg hempty, Id.run_bind]
    cases (versions source path).run with
    | error outcome => exact iff_of_false (not_fails_ok _) nofun
    | ok texts =>
      obtain ⟨before, after⟩ := texts
      dsimp only [Id.run_pure]
      rw [fails_map_iff, Snapshot.fails_sliceFile_iff hplaced]
      simp

theorem fails_byHunks_iff : Fails (byHunks source path).run ↔
    ∃ diff, (source.diff path).run = .text diff ∧ EscapesHunks source path diff := by
  cases hdiff : (source.diff path).run with
  | failed _ | unavailable =>
    unfold byHunks
    rw [Id.run_bind, hdiff]
    exact iff_of_false (not_fails_ok _) nofun
  | text diff =>
    simp only [Answer.text.injEq, exists_eq_left']
    unfold EscapesHunks
    rw [← fails_parse_iff]
    cases hparse : parse diff with
    | error limit =>
      unfold byHunks
      rw [Id.run_bind, hdiff]
      dsimp only
      rw [hparse]
      exact iff_of_true (fails_error _) (.inl (fails_error _))
    | ok parsed =>
      rw [fails_byHunks_of_parse hdiff hparse, or_iff_right (not_fails_ok _)]
      simp only [versions_eq_ok_iff, Except.ok.injEq, and_assoc]
      grind

/-! ## By statements -/

theorem fails_correlate_iff {matching : Matching} {diff : Text}
    {before? after? : Option (List Statement)} :
    Fails (Correlation.correlate matching path diff before? after?) ↔
      Fails (parse diff) ∧ before?.isSome = true ∧ after?.isSome = true := by
  unfold Correlation.correlate
  cases before? with
  | none => exact iff_of_false (not_fails_ok _) (by simp)
  | some before =>
    cases after? with
    | none => exact iff_of_false (not_fails_ok _) (by simp)
    | some after =>
      dsimp only
      rw [fails_bind_iff, or_iff_left]
      · simp
      · rintro ⟨parsed, -, h⟩
        split at h <;> exact not_fails_ok _ h

theorem fails_byStatements_iff {matching : Matching} :
    Fails (byStatements source matching path).run ↔
      ∃ diff, (source.diff path).run = .text diff ∧ EscapesStatements source path diff := by
  unfold byStatements EscapesStatements
  cases Language.ofPath? path with
  | none => exact iff_of_false (not_fails_ok _) (by simp)
  | some l =>
    dsimp only
    rw [Id.run_bind]
    cases (source.diff path).run with
    | failed _ | unavailable => exact iff_of_false (not_fails_ok _) nofun
    | text diff =>
      simp only [Answer.text.injEq, exists_eq_left', Option.some.injEq]
      by_cases hblank : Text.allBlank diff = true
      · rw [if_pos hblank]
        exact iff_of_false (not_fails_ok _) fun h => h.1.not_allBlank hblank
      · -- Only the correlation is left, and it reads the diff once both outlines are there.
        rw [if_neg hblank, Id.run_bind, ← fails_parse_iff]
        simp only [← and_assoc (a := (source.version .before path).run = _), ← versions_eq_ok_iff]
        cases (versions source path).run with
        | error outcome => exact iff_of_false (not_fails_ok _) (by simp)
        | ok texts =>
          obtain ⟨before, after⟩ := texts
          dsimp only
          rw [Id.run_bind, Id.run_bind, Id.run_pure, fails_correlate_iff]
          simp [statements]

theorem fails_reduceFile_iff {plan : Plan} :
    Fails (reduceFile source plan path).run ↔ Escapes source plan path := by
  unfold reduceFile Escapes
  cases plan.strategy with
  | hunks => exact fails_byHunks_iff
  | statements => exact fails_byStatements_iff

/-! ## All files -/

theorem fails_run_iff {plan : Plan} {paths : List Path} :
    Fails (run source plan paths).run ↔ ∃ path ∈ paths, Escapes source plan path := by
  unfold run
  rw [Id.run_bind, List.idRun_mapM, Id.run_pure, fails_bind_iff, or_iff_left]
  · rw [fails_mapM_iff]
    simp only [List.mem_map, exists_exists_and_eq_and, id, fails_reduceFile_iff]
  · rintro ⟨outcomes, -, h⟩
    exact not_fails_ok _ h

/-! ## A number that is too long -/

namespace Overlong

def header (number : Text) : Text :=
  ['@', '@', ' ', '-', '1', ' ', '+'] ++ number ++ [' ', '@', '@']

def diff (number : Text) : Text := header number ++ ['\n'] ++ ['-', 'a', '\n', '+', 'b', '\n']

theorem isNumber_one : Header.IsNumber ['1'] := (Header.Numeral.single '1' rfl).isNumber

variable {number : Text}

theorem numberWords_header (h : Header.IsNumber number) :
    Header.numberWords (header number) = [['1'], number] := by
  have hwords : Header.words? (header number) = some (['1'], number) := by
    rw [← List.append_nil (header number)]
    exact Header.words?_append isNumber_one.not_blank h.not_blank isNumber_one.nonempty h.nonempty
  unfold Header.numberWords
  rw [hwords]
  dsimp only
  rw [Header.rangeWords_of_isNumber isNumber_one, Header.rangeWords_of_isNumber h,
    List.singleton_append]

theorem feed_not_mem_header (h : Header.IsNumber number) : '\n' ∉ header number := by
  have hnumber : '\n' ∉ number := fun hmem => absurd (h.ascii _ hmem) (by decide)
  simp [header, hnumber]

theorem ofLine_header : Header.ofLine (header number ++ ['\n']) = header number := by
  unfold header Header.ofLine
  rw [show [' ', '@', '@'] = [' ', '@'] ++ ['@'] from rfl, ← List.append_assoc,
    Text.dropEnd_append (by decide)]
  exact List.append_nil _

theorem isUnreadable (h : Header.IsNumber number) (hlong : digitLimit < number.length) :
    IsUnreadable (diff number) := by
  refine ⟨header number ++ ['\n'], ?_, rfl, ?_⟩
  · unfold diff
    rw [Text.lines_feed (feed_not_mem_header h)]
    exact List.mem_cons_self
  · rw [ofLine_header, numberWords_header h]
    exact ⟨isNumber_one, .inr ⟨h, .inl hlong⟩⟩

end Overlong

/-- A file has its outcome, whatever the source answers and wherever it fails, unless a number in
its diff has too many digits, and a run has a result if every file has its outcome. -/
theorem reduceFile_iff_not_escapes (source : FileSource Id) (plan : Plan) :
    (∀ path, (∃ outcome, (reduceFile source plan path).run = .ok outcome) ↔
      ¬ Escapes source plan path) ∧
    ∀ paths, (∃ collection, (run source plan paths).run = .ok collection) ↔
      ∀ path ∈ paths, ¬ Escapes source plan path := by
  constructor
  · intro path
    rw [← fails_reduceFile_iff, not_fails_iff]
  · intro paths
    rw [← not_fails_iff, fails_run_iff]
    simp

/-- One digit more than may be read leaves a run of one file without a result. -/
theorem not_reduceFile_overlong :
    (¬ ∃ outcome,
      (reduceFile (FileSource.ofTexts "a\n".toList "b\n".toList
          (Overlong.diff (List.replicate 4301 '1')))
        ⟨.hunks, .position, 4⟩ "a.ts".toList).run = .ok outcome) ∧
    ¬ ∃ collection,
      (run (FileSource.ofTexts "a\n".toList "b\n".toList
          (Overlong.diff (List.replicate 4301 '1')))
        ⟨.hunks, .position, 4⟩ ["a.ts".toList]).run = .ok collection := by
  have hnumber : Header.IsNumber (List.replicate 4301 '1') := by
    refine ⟨List.cons_ne_nil _ _, fun c hc => ?_⟩
    rw [List.eq_of_mem_replicate hc]
    rfl
  have hlong : digitLimit < (List.replicate 4301 '1').length := by
    rw [List.length_replicate]
    decide
  have hescapes : Escapes (FileSource.ofTexts "a\n".toList "b\n".toList
      (Overlong.diff (List.replicate 4301 '1'))) ⟨.hunks, .position, 4⟩ "a.ts".toList :=
    ⟨_, rfl, .inl (Overlong.isUnreadable hnumber hlong)⟩
  rw [← not_fails_iff, ← not_fails_iff, not_not, not_not]
  exact ⟨fails_reduceFile_iff.2 hescapes,
    fails_run_iff.2 ⟨_, List.mem_singleton.2 rfl, hescapes⟩⟩

end Reduction
end ChangePairs
