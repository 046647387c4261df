import ChangePairs.Reduction
import ChangePairs.Proofs.Snapshot

/-!
Reducing a file hunk by hunk.  `byHunks_of_texts` says what a source comes to that has the diff
and both versions of a file.  With a unified diff between the two versions that is one pair for
each hunk, as it is written in the diff, and no diagnostic (`reduceFile_unified`).
-/

namespace ChangePairs

def FileSource.ofTexts (before after diff : Text) : FileSource Id where
  diff _ := .text diff
  version side _ := .text (side.pick before after)
  nodes _ _ _ _ := none

namespace Reduction

open Diff

variable {m : Type → Type} [Monad m] [LawfulMonad m]

theorem versions_of_texts {source : FileSource m} {path : Path} {before after : Text}
    (hbefore : source.version .before path = pure (.text before))
    (hafter : source.version .after path = pure (.text after)) :
    versions source path = pure (.ok (before, after)) := by
  unfold versions
  rw [hbefore, hafter, pure_bind]
  dsimp only
  rw [pure_bind]

/-- A diff that is read and two versions that are there leave nothing to fail but the slicing. -/
theorem byHunks_of_texts {source : FileSource m} {path : Path} {diff before after : Text}
    {parsed : Diff.Parsed} (hdiff : source.diff path = pure (.text diff))
    (hparse : Diff.parse diff = .ok parsed)
    (hbefore : source.version .before path = pure (.text before))
    (hafter : source.version .after path = pure (.text after)) :
    byHunks source path = pure
      ((Snapshot.sliceFile path before after parsed.hunks).map fun outcome =>
        { outcome with
          diagnostics := parsed.rejections.map (Diagnostic.ofRejection path) ++
            outcome.diagnostics }) := by
  unfold byHunks
  rw [hdiff, pure_bind]
  dsimp only
  rw [hparse]
  dsimp only
  cases hhunks : parsed.hunks with
  | nil =>
    simp only [List.isEmpty_nil, if_true, Snapshot.sliceFile, Snapshot.sliceAll]
    simp [bind, Except.bind, pure, Except.pure, Except.map]
  | cons hunk hunks =>
    simp only [List.isEmpty_cons, Bool.false_eq_true, if_false]
    rw [versions_of_texts hbefore hafter, pure_bind]

theorem byHunks_ofTexts {before after diff : Text} {parsed : Diff.Parsed}
    (hparse : Diff.parse diff = .ok parsed) (path : Path) :
    (byHunks (FileSource.ofTexts before after diff) path).run =
      (Snapshot.sliceFile path before after parsed.hunks).map fun outcome =>
        { outcome with
          diagnostics := parsed.rejections.map (Diagnostic.ofRejection path) ++
            outcome.diagnostics } :=
  congrArg Id.run (byHunks_of_texts rfl hparse rfl rfl)

omit [LawfulMonad m] in
theorem reduceFile_hunks {plan : Plan} (hplan : plan.strategy = .hunks) (source : FileSource m)
    (path : Path) : reduceFile source plan path = byHunks source path := by
  unfold reduceFile
  rw [hplan]

/-- A unified diff between the versions of a file gives the pairs that are written in it, those
with nothing on either side left out, and no diagnostic. -/
theorem reduceFile_unified {source : FileSource m} {plan : Plan} {path : Path}
    {before after diff : Text} {hunks : List UnifiedHunk} (hplan : plan.strategy = .hunks)
    (hunified : IsUnified before after diff hunks)
    (hdiff : source.diff path = pure (.text diff))
    (hbefore : source.version .before path = pure (.text before))
    (hafter : source.version .after path = pure (.text after)) :
    reduceFile source plan path =
      pure (.ok ⟨path, (hunks.map Snapshot.writtenPair).filter fun pair => !pair.isEmpty, []⟩) := by
  obtain ⟨ps, hparse, hreads⟩ := Diff.parse_unified hunified
  unfold reduceFile
  rw [hplan]
  dsimp only
  rw [byHunks_of_texts hdiff hparse hbefore hafter]
  unfold Snapshot.sliceFile
  rw [Snapshot.sliceAll_of_fits hreads hunified.fits path]
  rfl

theorem reduceFile_unified_confusing :
    IsUnified Confusing.before Confusing.after Confusing.diff
        [Confusing.hunk, Confusing.emptyHunk] ∧
      reduceFile (FileSource.ofTexts Confusing.before Confusing.after Confusing.diff)
          ⟨.hunks, .position, 4⟩ "f".toList =
        pure (.ok ⟨"f".toList,
          [⟨"a\r\n-- x\n@@ -1 +1 @@\n\\ end".toList, "a\r\n++ y\n\\ end\nz".toList⟩], []⟩) := by
  refine ⟨Confusing.isUnified, ?_⟩
  rw [reduceFile_unified rfl Confusing.isUnified rfl rfl rfl]
  rfl

end Reduction
end ChangePairs
