import ChangePairs.Collection
import ChangePairs.Proofs.Pairing
import ChangePairs.Proofs.Reduction.Hunks
import ChangePairs.Proofs.Result
import ChangePairs.Proofs.Snapshot.Slicing

/-!
What every outcome of a file is like, whatever the source answers and in whatever monad it works.
The outcome and its diagnostics name the file, no pair is empty on both sides, missing content is
reported alone, and by statements there is one pair or there are diagnostics, never both.

There are many ways to an outcome but only two kinds of them: one that lacks content
(`isSound_missing`), and one whose diagnostics are all about hunks (`isSound_of_parseErrors`).  The
main statement is `reduceFile_sound`.
-/

namespace ChangePairs

/-- What holds of the outcome of a file. -/
structure Outcome.IsSound (strategy : Strategy) (path : Path) (o : Outcome) : Prop where
  named : o.path = path
  diagnosed : ∀ d ∈ o.diagnostics, d.path = path
  nonempty : ∀ pair ∈ o.pairs, pair.before ≠ [] ∨ pair.after ≠ []
  alone : ∀ d ∈ o.diagnostics, d.kind = .missingContent → o.diagnostics = [d] ∧ o.pairs = []
  whole : strategy = .statements → o.pairs.length ≤ 1 ∧ (o.pairs = [] ∨ o.diagnostics = [])

theorem SnippetPair.isEmpty_eq_false_iff {pair : SnippetPair} :
    pair.isEmpty = false ↔ pair.before ≠ [] ∨ pair.after ≠ [] := by
  unfold SnippetPair.isEmpty
  rw [Bool.and_eq_false_iff, List.isEmpty_eq_false_iff, List.isEmpty_eq_false_iff]

namespace Reduction

variable {strategy : Strategy} {path : Path}

theorem isSound_missing (strategy : Strategy) (path message : Text) :
    (Outcome.missing path message).IsSound strategy path where
  named := rfl
  diagnosed d hd := by
    obtain rfl := List.mem_singleton.1 hd
    rfl
  nonempty := nofun
  alone d hd _ := by
    obtain rfl := List.mem_singleton.1 hd
    exact ⟨rfl, rfl⟩
  whole _ := ⟨Nat.zero_le 1, .inl rfl⟩

/-- Diagnostics that are all about hunks of the file do not speak of missing content. -/
theorem isSound_of_parseErrors {pairs : List SnippetPair} {diagnostics : List Diagnostic}
    (hdiagnostics : ∀ d ∈ diagnostics, d.path = path ∧ d.kind = .parseError)
    (hpairs : ∀ pair ∈ pairs, pair.isEmpty = false)
    (hwhole : strategy = .statements → pairs.length ≤ 1 ∧ (pairs = [] ∨ diagnostics = [])) :
    (⟨path, pairs, diagnostics⟩ : Outcome).IsSound strategy path where
  named := rfl
  diagnosed d hd := (hdiagnostics d hd).1
  nonempty pair hpair := SnippetPair.isEmpty_eq_false_iff.1 (hpairs pair hpair)
  alone d hd hkind := by
    rw [(hdiagnostics d hd).2] at hkind
    nomatch hkind
  whole := hwhole

theorem mem_rejections {rejections : List Diff.Rejection} {d : Diagnostic}
    (h : d ∈ rejections.map (Diagnostic.ofRejection path)) :
    d.path = path ∧ d.kind = .parseError := by
  obtain ⟨r, -, rfl⟩ := List.mem_map.1 h
  exact ⟨rfl, rfl⟩

/-! ## Hunk by hunk -/

theorem mem_reports {before after : List Text} {hunks : List Hunk}
    {results : List (Except Diagnostic SnippetPair)} {d : Diagnostic}
    (hresults : List.Forall₂ (Snapshot.Slices path before after) hunks results)
    (h : d ∈ (Snapshot.gather results).2) : d.path = path ∧ d.kind = .parseError := by
  obtain ⟨r, hr, hreport⟩ := List.mem_filterMap.1 h
  cases r with
  | ok pair => nomatch hreport
  | error d' =>
    obtain rfl := Option.some.inj hreport
    obtain ⟨hunk, -, hslices⟩ := exists_of_forall₂ hresults.flip hr
    cases hslices with
    | old | new => exact ⟨rfl, rfl⟩

theorem isSound_sliceFile {before after : Text} {hunks : List Hunk} {sliced : Outcome}
    (h : Snapshot.sliceFile path before after hunks = .ok sliced)
    (rejections : List Diff.Rejection) :
    { sliced with
      diagnostics := rejections.map (Diagnostic.ofRejection path) ++ sliced.diagnostics }.IsSound
        .hunks path := by
  obtain ⟨results, hresults, rfl⟩ := Snapshot.sliceFile_eq_ok_iff.1 h
  refine isSound_of_parseErrors (fun d hd => ?_) (fun pair hpair => ?_) nofun
  · rcases List.mem_append.1 hd with hd | hd
    · exact mem_rejections hd
    · exact mem_reports hresults hd
  · have hkept := (List.mem_filter.1 hpair).2
    simpa using hkept

/-! ## By statements -/

theorem isSound_correlate {matching : Matching} {diff : Text}
    {before? after? : Option (List Statement)} {o : Outcome}
    (h : Correlation.correlate matching path diff before? after? = .ok o) :
    o.IsSound strategy path := by
  unfold Correlation.correlate at h
  split at h
  · obtain rfl := Except.ok.inj h
    exact isSound_missing strategy path _
  · obtain rfl := Except.ok.inj h
    exact isSound_missing strategy path _
  · next before after =>
    obtain ⟨parsed, -, h⟩ := bind_eq_ok_iff.1 h
    -- One rejected header is enough to leave out the pair, so that the two never come together.
    by_cases hread : parsed.rejections.isEmpty = true
    · rw [if_pos hread] at h
      obtain rfl := Except.ok.inj h
      refine isSound_of_parseErrors nofun ?_ ?_
      · intro pair hpair
        split at hpair
        · nomatch hpair
        · next hempty =>
          rw [List.mem_singleton.1 hpair]
          exact eq_false_of_ne_true hempty
      · intro _
        refine ⟨?_, .inr rfl⟩
        split
        · exact Nat.zero_le 1
        · exact Nat.le_refl 1
    · rw [if_neg hread] at h
      obtain rfl := Except.ok.inj h
      exact isSound_of_parseErrors (fun d => mem_rejections) nofun
          fun _ => ⟨Nat.zero_le 1, .inl rfl⟩

/-! ## Every source -/

section

variable {m : Type → Type} [Monad m] [LawfulMonad m]

/-- Versions that cannot be had leave an outcome that lacks content. -/
theorem satisfiesM_versions (source : FileSource m) (strategy : Strategy) (path : Path) :
    SatisfiesM (fun r => ∀ o, r = .error o → o.IsSound strategy path) (versions source path) := by
  have hmissing : ∀ message, SatisfiesM (m := m)
      (fun r : Except Outcome (Text × Text) => ∀ o, r = .error o → o.IsSound strategy path)
      (pure (.error (.missing path message))) := by
    intro message
    refine SatisfiesM.pure fun o ho => ?_
    obtain rfl := Except.error.inj ho
    exact isSound_missing strategy path message
  unfold versions
  refine SatisfiesM.bind SatisfiesM.trivial fun before _ => ?_
  split
  · exact hmissing _
  · -- The new version is asked for even where the old one is missing, and may fail first.
    refine SatisfiesM.bind SatisfiesM.trivial fun after _ => ?_
    split
    · exact hmissing _
    · exact SatisfiesM.pure nofun
    · exact hmissing _
    · exact hmissing _

/-- What comes behind the versions need only be looked at where both are there. -/
theorem ensures_versions_bind (source : FileSource m)
    {f : Except Outcome (Text × Text) → m (Except DigitLimitExceeded Outcome)}
    (herror : ∀ o, f (.error o) = pure (.ok o))
    (hok : ∀ before after, Ensures (Outcome.IsSound strategy path) (f (.ok (before, after)))) :
    Ensures (Outcome.IsSound strategy path) (versions source path >>= f) := by
  refine SatisfiesM.bind (satisfiesM_versions source strategy path) fun r hr => ?_
  cases r with
  | error o =>
    rw [herror]
    exact ensures_ok (hr o rfl)
  | ok texts => exact hok texts.1 texts.2

theorem ensures_byHunks (source : FileSource m) (path : Path) :
    Ensures (Outcome.IsSound .hunks path) (byHunks source path) := by
  unfold byHunks
  refine ensures_bind fun answer => ?_
  cases answer with
  | failed reason => exact ensures_ok (isSound_missing .hunks path _)
  | unavailable => exact ensures_ok (isSound_missing .hunks path _)
  | text diff =>
    dsimp only
    cases Diff.parse diff with
    | error limit => exact ensures_error _ limit
    | ok parsed =>
      dsimp only
      split
      · exact ensures_ok (isSound_of_parseErrors (fun d => mem_rejections) nofun nofun)
      · refine ensures_versions_bind source (fun o => rfl) fun before after => ?_
        dsimp only
        cases hsliced : Snapshot.sliceFile path before after parsed.hunks with
        | error limit => exact ensures_error _ limit
        | ok sliced => exact ensures_ok (isSound_sliceFile hsliced parsed.rejections)

theorem ensures_byStatements (source : FileSource m) (matching : Matching) (path : Path) :
    Ensures (Outcome.IsSound .statements path) (byStatements source matching path) := by
  unfold byStatements
  cases Language.ofPath? path with
  | none => exact ensures_ok (isSound_missing .statements path _)
  | some language =>
    refine ensures_bind fun answer => ?_
    cases answer with
    | failed reason => exact ensures_ok (isSound_missing .statements path _)
    | unavailable => exact ensures_ok (isSound_missing .statements path _)
    | text diff =>
      dsimp only
      split
      · exact ensures_ok (isSound_of_parseErrors nofun nofun fun _ => ⟨Nat.zero_le 1, .inl rfl⟩)
      · refine ensures_versions_bind source (fun o => rfl) fun before after => ?_
        refine ensures_bind fun before? => ensures_bind fun after? => ?_
        exact SatisfiesM.pure fun o => isSound_correlate

theorem ensures_reduceFile (source : FileSource m) (plan : Plan) (path : Path) :
    Ensures (Outcome.IsSound plan.strategy path) (reduceFile source plan path) := by
  unfold reduceFile
  cases plan.strategy with
  | hunks => exact ensures_byHunks source path
  | statements => exact ensures_byStatements source plan.matching path

/-! ## All files -/

theorem forall₂_of_mapM {q : Path → Outcome → Prop} {paths : List Path}
    {results : List (Except DigitLimitExceeded Outcome)}
    (hresults : List.Forall₂ (fun path r => ∀ o, r = .ok o → q path o) paths results)
    {outcomes : List Outcome} (h : results.mapM id = .ok outcomes) :
    List.Forall₂ q paths outcomes := by
  rw [mapM_id_eq_ok_iff.1 h, List.forall₂_map_right_iff] at hresults
  exact hresults.imp fun path o hr => hr o rfl

end

/-- Whatever a source answers, and however its answers change from call to call, the outcome of a
file is sound. -/
theorem reduceFile_sound {σ : Type} {source : FileSource (StateM σ)} {plan : Plan} {path : Path}
    {world world' : σ} {o : Outcome}
    (h : (reduceFile source plan path).run world = (.ok o, world')) :
    o.IsSound plan.strategy path :=
  (ensures_reduceFile source plan path).of_run h

/-! ## A source that counts

A rejected header, a hunk that fits and one that does not, from a source that counts how often it
is asked and lacks the new version from the third time on. -/

namespace Counting

def source : FileSource (StateM Nat) where
  diff _ := do
    modify (· + 1)
    return .text "@@ -x +1 @@\n@@ -1 +1 @@\n-a\n+b\n@@ -5 +5 @@\n".toList
  version side _ := do
    modify (· + 1)
    match side with
    | .before => return .text "a\n".toList
    | .after => return if (← get) ≤ 3 then .text "b\n".toList else .unavailable
  nodes _ _ _ _ := return none

def plan : Plan := ⟨.hunks, .position, 4⟩

def outcome : Outcome where
  path := "f".toList
  pairs := [⟨"a".toList, "b".toList⟩]
  diagnostics :=
    [⟨.parseError, "f".toList,
        "Non-numeric range 'x' in hunk header '@@ -x +1 @@'".toList, none⟩,
      ⟨.parseError, "f".toList, "old range 5-5 exceeds file length (1 lines)".toList,
        some "@@ -5 +5 @@".toList⟩]

end Counting

theorem reduceFile_sound_counting :
    (reduceFile Counting.source Counting.plan "f".toList).run 0 = (.ok Counting.outcome, 3) ∧
      Counting.outcome.IsSound .hunks "f".toList ∧
      (reduceFile Counting.source Counting.plan "f".toList).run 3 =
        (.ok (versionUnavailable "f".toList .after), 6) ∧
      (versionUnavailable "f".toList .after).IsSound .hunks "f".toList := by
  have hfirst : (reduceFile Counting.source Counting.plan "f".toList).run 0 =
      (.ok Counting.outcome, 3) := by rfl
  have hsecond : (reduceFile Counting.source Counting.plan "f".toList).run 3 =
      (.ok (versionUnavailable "f".toList .after), 6) := by rfl
  exact ⟨hfirst, reduceFile_sound hfirst, hsecond, reduceFile_sound hsecond⟩

end Reduction
end ChangePairs
