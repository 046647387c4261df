import ChangePairs.Git.Source
import ChangePairs.Proofs.Reduction.Newline
import ChangePairs.Proofs.Text.Utf8

/-!
The source that git keeps.  Git counts lines by line feeds, and what it prints is read with line
feeds for all line ends.  So a file is reduced as if its diff and its versions had no carriage
return, while the ranges of the diff count the lines that had them.

The main statement, `reduceFile_source`, says when this is harmless: when no line down to the end
of a range has a carriage return inside.  `take_lines_unifyNewlines_iff` is part of it: behind the
first line that does, no line keeps its number.
-/

namespace ChangePairs
namespace Git

open Diff (IsUnified UnifiedHunk)
open Reduction (KeepsNumbers byHunks reduceFile)
open Text (unifyNewlines)

variable {m : Type → Type} [Monad m] [LawfulMonad m]

/-! ## What git prints -/

/-- Git succeeds when it is asked in the directory of a file, and prints the octets. -/
def Prints (h : Host m) (path : Path) (words : List Text) (octets : Octets) : Prop :=
  ∃ errors, h.run ⟨"git ".toList ++ Shell.commandLine words,
    (some (directoryOf h path)).filter (!·.isEmpty)⟩ = pure (.exited 0 octets errors)

/-- The file is `before` at the latest commit and `after` in the work tree, and git prints `diff`
as the change between the two. -/
structure HasChange (h : Host m) (path : Path) (commit before after diff : Text) : Prop where
  hash : ∃ octets, Prints h path (wordsOf "rev-parse HEAD") octets ∧
    Text.trim (outputText octets) = commit
  hash_ne_nil : commit ≠ []
  diff : Prints h path (wordsOf "diff --no-color --no-ext-diff" ++
    [commit, "--".toList, Path.baseName path]) (Octets.encode diff)
  before : Prints h path ["show".toList, commit ++ ":./".toList ++ Path.baseName path]
    (Octets.encode before)
  after : h.files.read (Path.absolute h.present path) = pure (some (Octets.encode after))

def Agrees (cache : CommitCache) (directory : Path) (commit : Text) : Prop :=
  ∀ known, CommitCache.get? directory cache = some known → known = some commit

theorem outputText_encode (t : Text) : outputText (Octets.encode t) = unifyNewlines t := by
  unfold outputText
  rw [Octets.decode_encode]

section

variable {h : Host m} {path : Path} {commit before after diff : Text}

theorem ask_of_prints {words : List Text} {octets : Octets} (hprints : Prints h path words octets) :
    ask h words (some (directoryOf h path)) = pure (some (outputText octets)) := by
  obtain ⟨errors, hrun⟩ := hprints
  unfold ask run
  rw [hrun]
  simp [Except.toOption]

theorem HasChange.latestCommit_eq (hchange : HasChange h path commit before after diff) :
    latestCommit h (directoryOf h path) = pure (some commit) := by
  obtain ⟨octets, hprints, hhash⟩ := hchange.hash
  have hne : commit.isEmpty = false := by simpa using hchange.hash_ne_nil
  unfold latestCommit
  rw [ask_of_prints hprints, pure_bind]
  dsimp only
  rw [hhash, hne]
  rfl

theorem HasChange.run_commitFor (hchange : HasChange h path commit before after diff)
    {cache : CommitCache} (hcache : Agrees cache (directoryOf h path) commit) :
    ∃ cache', (commitFor h path).run cache = pure (some commit, cache') ∧
      CommitCache.get? (directoryOf h path) cache' = some (some commit) := by
  unfold commitFor commitOf
  cases hget : CommitCache.get? (directoryOf h path) cache with
  | some known =>
    obtain rfl := hcache known hget
    exact ⟨cache, by simp [hget], hget⟩
  | none =>
    refine ⟨(directoryOf h path, some commit) :: cache, ?_, by simp [CommitCache.get?]⟩
    simp [hget, hchange.latestCommit_eq]

/-- Once the commit is known, what is asked about it leaves the cache as it is. -/
theorem run_withCommit {cache : CommitCache} {query : Text → m (Option Text)}
    {answer : Option Text}
    (hget : CommitCache.get? (directoryOf h path) cache = some (some commit))
    (hquery : query commit = pure answer) :
    (withCommit h path query).run cache = pure (answer, cache) := by
  unfold withCommit commitFor commitOf
  simp [hget, hquery]

theorem HasChange.run_diff (nodes : Language → Text → m (Option (List Node)))
    (hchange : HasChange h path commit before after diff)
    {cache : CommitCache} (hcache : Agrees cache (directoryOf h path) commit) :
    ∃ cache', ((source h nodes).diff path).run cache =
        pure (.text (unifyNewlines diff), cache') ∧
      CommitCache.get? (directoryOf h path) cache' = some (some commit) := by
  obtain ⟨cache', hcommit, hget⟩ := hchange.run_commitFor hcache
  have hquery : diffSince h commit path = pure (some (unifyNewlines diff)) := by
    unfold diffSince
    rw [ask_of_prints hchange.diff, outputText_encode]
  have hdiff : (Git.diff h path).run cache = pure (some (unifyNewlines diff), cache') := by
    unfold Git.diff withCommit
    rw [StateT.run_bind, hcommit, pure_bind]
    simp [hquery]
  refine ⟨cache', ?_, hget⟩
  unfold source
  dsimp only
  rw [StateT.run_bind, hdiff, pure_bind]
  rfl

theorem HasChange.run_version (nodes : Language → Text → m (Option (List Node)))
    (hchange : HasChange h path commit before after diff)
    {cache : CommitCache}
    (hget : CommitCache.get? (directoryOf h path) cache = some (some commit)) (side : Side) :
    ((source h nodes).version side path).run cache =
      pure (.text (unifyNewlines (side.pick before after)), cache) := by
  have hversion : (version h side path).run cache =
      pure (some (unifyNewlines (side.pick before after)), cache) := by
    unfold version
    cases side with
    | before =>
      refine run_withCommit hget ?_
      unfold contentAt
      rw [ask_of_prints hchange.before, outputText_encode]
      rfl
    | after =>
      unfold workingContent
      rw [hchange.after]
      simp [outputText_encode, Side.pick]
  unfold source
  dsimp only
  rw [StateT.run_bind, hversion, pure_bind]
  rfl

end

/-! ## Reducing a file -/

section

variable {σ : Type} {s s' : σ} {source : FileSource (StateT σ m)} {path : Path}
  {before after diff : Text}

theorem run_versions
    (hversion : ∀ side : Side, (source.version side path).run s =
      pure (.text (side.pick before after), s)) :
    (Reduction.versions source path).run s = pure (.ok (before, after), s) := by
  unfold Reduction.versions
  rw [StateT.run_bind, hversion .before, pure_bind]
  dsimp only [Side.pick]
  rw [StateT.run_bind, hversion .after, pure_bind]
  rfl

/-- A source that has a diff and both versions is as good as these texts themselves. -/
theorem run_byHunks (hdiff : (source.diff path).run s = pure (.text diff, s'))
    (hversion : ∀ side : Side, (source.version side path).run s' =
      pure (.text (side.pick before after), s')) :
    (byHunks source path).run s =
      pure ((byHunks (FileSource.ofTexts before after diff) path).run, s') := by
  cases hparse : Diff.parse diff with
  | error limit =>
    have htexts : (byHunks (FileSource.ofTexts before after diff) path).run = .error limit := by
      unfold byHunks
      rw [Id.run_bind]
      dsimp only [FileSource.ofTexts, Id.run]
      rw [hparse]
      rfl
    rw [htexts]
    unfold byHunks
    rw [StateT.run_bind, hdiff, pure_bind]
    dsimp only
    rw [hparse]
    rfl
  | ok parsed =>
    rw [Reduction.byHunks_ofTexts hparse]
    unfold byHunks
    rw [StateT.run_bind, hdiff, pure_bind]
    dsimp only
    rw [hparse]
    dsimp only
    cases hhunks : parsed.hunks with
    | nil =>
      -- The versions are not asked for, and the slicing of no hunks does not look at them.
      have hempty : Snapshot.sliceFile path before after [] = .ok ⟨path, [], []⟩ := rfl
      rw [if_pos List.isEmpty_nil, StateT.run_pure, hempty]
      dsimp only [Except.map]
      rw [List.append_nil]
    | cons hunk hunks =>
      rw [List.isEmpty_cons, if_neg Bool.false_ne_true, StateT.run_bind, run_versions hversion,
        pure_bind]
      rfl

end

/-- The source that git keeps gives a file the outcome that its texts give without carriage
returns.  With a unified diff that is the pairs that are written in it, as long as the ranges keep
their numbers; and these are kept by the first lines of a version if and only if none of them has
a carriage return inside. -/
theorem reduceFile_source {h : Host m} {nodes : Language → Text → m (Option (List Node))}
    {plan : Plan} {path : Path} {cache : CommitCache} {commit before after diff : Text}
    {hunks : List UnifiedHunk} (hplan : plan.strategy = .hunks)
    (hchange : HasChange h path commit before after diff)
    (hcache : Agrees cache (directoryOf h path) commit)
    (hunified : IsUnified before after diff hunks) :
    ∃ cache',
      (reduceFile (source h nodes) plan path).run cache =
        pure ((reduceFile (FileSource.ofTexts (unifyNewlines before) (unifyNewlines after)
          (unifyNewlines diff)) plan path).run, cache') ∧
      (KeepsNumbers before after diff hunks →
        (reduceFile (source h nodes) plan path).run cache =
          pure (.ok ⟨path, (hunks.map fun h => (Snapshot.writtenPair h).unifyNewlines).filter
            fun pair => !pair.isEmpty, []⟩, cache')) ∧
      ∀ (side : Side) (n : Nat),
        (Text.lines (unifyNewlines (side.pick before after))).take n =
            ((Text.lines (side.pick before after)).take n).map unifyNewlines ↔
          ∀ line ∈ (Text.lines (side.pick before after)).take n, Text.IsPlain line := by
  obtain ⟨cache', hdiff, hget⟩ := hchange.run_diff nodes hcache
  have hversion : ∀ side : Side, ((source h nodes).version side path).run cache' =
      pure (.text (side.pick (unifyNewlines before) (unifyNewlines after)), cache') := by
    intro side
    rw [hchange.run_version nodes hget side]
    cases side <;> rfl
  have hrun := run_byHunks hdiff hversion
  rw [Reduction.reduceFile_hunks hplan, Reduction.reduceFile_hunks hplan]
  refine ⟨cache', hrun, ?_, fun side n => Text.take_lines_unifyNewlines_iff _ n⟩
  intro hkeeps
  rw [hrun, Reduction.byHunks_unifyNewlines hunified hkeeps]

/-! ## A scripted machine -/

namespace Scripted

def host (before after diff : Text) : Host Id where
  present := "/work".toList
  files :=
    { isFile := fun path => decide (path = "/work/a.ts".toList)
      isDirectory := fun path => decide (path = "/work".toList)
      read := fun path =>
        if path = "/work/a.ts".toList then some (Octets.encode after) else none
      readParts := fun path =>
        if path = "/work/a.ts".toList then some [Octets.encode after] else none }
  run command :=
    if command.line = "git rev-parse HEAD".toList then
      .exited 0 (Octets.encode "c0ffee\n".toList) []
    else if command.line = "git show c0ffee:./a.ts".toList then
      .exited 0 (Octets.encode before) []
    else if command.line = "git diff --no-color --no-ext-diff c0ffee -- a.ts".toList then
      .exited 0 (Octets.encode diff) []
    else .exited 128 [] (Octets.encode "fatal: bad revision\n".toList)

theorem hasChange (before after diff : Text) :
    HasChange (host before after diff) "a.ts".toList "c0ffee".toList before after diff where
  hash := ⟨_, ⟨[], rfl⟩, rfl⟩
  hash_ne_nil := List.cons_ne_nil _ _
  diff := ⟨[], rfl⟩
  before := ⟨[], rfl⟩
  after := rfl

def noNodes (_ : Language) (_ : Text) : Id (Option (List Node)) := none

def outcome (before after diff : Text) : Except DigitLimitExceeded Outcome × CommitCache :=
  ((reduceFile (source (host before after diff) noNodes) ⟨.hunks, .position, 4⟩
    "a.ts".toList).run []).run

end Scripted

/-! ### Carriage returns that do no harm

They stand at the ends of lines, and inside a line below the only hunk. -/

namespace Harmless

def texts (side : Side) : Text := side.pick 'a' 'A' :: "\r\nb\r\nc\r\nd\r\ne\rf\n".toList

def diff : Text :=
  "--- a/a.ts\n+++ b/a.ts\n@@ -1,4 +1,4 @@\n-a\r\n+A\r\n b\r\n c\r\n d\r\n".toList

def hunk : UnifiedHunk where
  old := ⟨.lastDigit 1, some (.lastDigit 4)⟩
  new := ⟨.lastDigit 1, some (.lastDigit 4)⟩
  tail := []
  body :=
    [⟨.deleted, "a\r".toList⟩, ⟨.added, "A\r".toList⟩, ⟨.context, "b\r".toList⟩,
      ⟨.context, "c\r".toList⟩, ⟨.context, "d\r".toList⟩]

theorem isUnified : IsUnified (texts .before) (texts .after) diff [hunk] := by
  refine Diff.isUnified_of_drop 2 (by decide +kernel) (by decide +kernel) fun side => ?_
  cases side <;> exact ⟨rfl, by decide, rfl⟩

theorem keepsNumbers : KeepsNumbers (texts .before) (texts .after) diff [hunk] := by
  refine ⟨?_, by decide +kernel⟩
  intro h hh side _
  obtain rfl := List.mem_singleton.1 hh
  cases side <;> decide +kernel

end Harmless

theorem reduceFile_source_harmless :
    HasChange (Scripted.host (Harmless.texts .before) (Harmless.texts .after) Harmless.diff)
        "a.ts".toList "c0ffee".toList (Harmless.texts .before) (Harmless.texts .after)
        Harmless.diff ∧
      IsUnified (Harmless.texts .before) (Harmless.texts .after) Harmless.diff [Harmless.hunk] ∧
      KeepsNumbers (Harmless.texts .before) (Harmless.texts .after) Harmless.diff
        [Harmless.hunk] ∧
      (Scripted.outcome (Harmless.texts .before) (Harmless.texts .after) Harmless.diff).1 =
        .ok ⟨"a.ts".toList, [⟨"a\nb\nc\nd".toList, "A\nb\nc\nd".toList⟩], []⟩ := by
  have hchange := Scripted.hasChange (Harmless.texts .before) (Harmless.texts .after) Harmless.diff
  refine ⟨hchange, Harmless.isUnified, Harmless.keepsNumbers, ?_⟩
  have hcache : Agrees [] (directoryOf (Scripted.host (Harmless.texts .before)
      (Harmless.texts .after) Harmless.diff) "a.ts".toList) "c0ffee".toList := by
    intro known hknown
    nomatch hknown
  obtain ⟨cache', -, hpairs, -⟩ := @reduceFile_source Id _ _ _ Scripted.noNodes
    ⟨.hunks, .position, 4⟩ _ _ _ _ _ _ _ rfl hchange hcache Harmless.isUnified
  exact congrArg Prod.fst (hpairs Harmless.keepsNumbers)

/-! ### A carriage return inside a line

It stands in the first line of a hunk, so the range ends one line too early. -/

namespace Harmful

def texts (side : Side) : Text := "a\rb\n".toList ++ [side.pick 'c' 'd', '\n']

def diff : Text := "--- a/a.ts\n+++ b/a.ts\n@@ -1,2 +1,2 @@\n a\rb\n-c\n+d\n".toList

def hunk : UnifiedHunk where
  old := ⟨.lastDigit 1, some (.lastDigit 2)⟩
  new := ⟨.lastDigit 1, some (.lastDigit 2)⟩
  tail := []
  body := [⟨.context, "a\rb".toList⟩, ⟨.deleted, "c".toList⟩, ⟨.added, "d".toList⟩]

theorem isUnified : IsUnified (texts .before) (texts .after) diff [hunk] := by
  refine Diff.isUnified_of_drop 2 (by decide +kernel) (by decide +kernel) fun side => ?_
  cases side <;> exact ⟨rfl, by decide, rfl⟩

end Harmful

/-- The pair that is found does not hold the lines that were changed. -/
theorem not_reduceFile_source_harmful :
    HasChange (Scripted.host (Harmful.texts .before) (Harmful.texts .after) Harmful.diff)
        "a.ts".toList "c0ffee".toList (Harmful.texts .before) (Harmful.texts .after)
        Harmful.diff ∧
      IsUnified (Harmful.texts .before) (Harmful.texts .after) Harmful.diff [Harmful.hunk] ∧
      (Scripted.outcome (Harmful.texts .before) (Harmful.texts .after) Harmful.diff).1 =
        .ok ⟨"a.ts".toList, [⟨"a\nb".toList, "a\nb".toList⟩], []⟩ ∧
      (Snapshot.writtenPair Harmful.hunk).unifyNewlines =
        ⟨"a\nb\nc".toList, "a\nb\nd".toList⟩ :=
  ⟨Scripted.hasChange _ _ _, Harmful.isUnified, rfl, rfl⟩

end Git
end ChangePairs
