import ChangePairs.Proofs.Git.Commit
import ChangePairs.Proofs.Path
import ChangePairs.Proofs.Shell

/-!
What a shell makes of the commands that ask about a file and a commit.  Whatever characters are in
the name of either, git is given the words that are meant, and nothing on the line is left to the
shell.

The last of these words is the last component of the path as the path is given, while the directory
that git works in is that of the absolute path.  The two belong together if and only if the
component is a name, which a path that ends in a slash or in dots does not have.  The main
statement, `linesRun_words`, says so.
-/

namespace ChangePairs
namespace Git

def linesRun {α : Type} (present : Path) (script : List Execution)
    (query : Host (StateM Machine) → StateM Machine α) : List Text :=
  ((query (Machine.host present)).run ⟨script, []⟩).2.ran.map fun ran => ran.1.line

/-- The words of the command for the diff of a file that is called `name`. -/
def diffWords (commit name : Text) : List Text :=
  ["git".toList, "diff".toList, "--no-color".toList, "--no-ext-diff".toList, commit, "--".toList,
    name]

/-- The words of the command for a file that is called `name`, as it was at a commit. -/
def contentWords (commit name : Text) : List Text :=
  ["git".toList, "show".toList, commit ++ ":./".toList ++ name]

theorem line_command (directory : Path) {words : List Text} (h : words ≠ []) :
    (command directory words).line = Shell.commandLine ("git".toList :: words) := by
  rw [Shell.commandLine_cons _ h]
  rfl

theorem linesRun_diffSince (present commit path : Text) (script : List Execution) :
    linesRun present script (diffSince · commit path) =
      [Shell.commandLine (diffWords commit (Path.baseName path))] := by
  have hwords : wordsOf "diff --no-color --no-ext-diff" =
    ["diff".toList, "--no-color".toList, "--no-ext-diff".toList] := by decide
  unfold linesRun diffSince
  rw [hwords, run_ask]
  exact congrArg ([·]) (line_command _ (List.cons_ne_nil _ _))

theorem linesRun_contentAt (present commit path : Text) (script : List Execution) :
    linesRun present script (contentAt · commit path) =
      [Shell.commandLine (contentWords commit (Path.baseName path))] := by
  unfold linesRun contentAt
  rw [run_ask]
  exact congrArg ([·]) (line_command _ (List.cons_ne_nil _ _))

section

variable {commit name : Text}

theorem null_notMem_diffWords (hcommit : '\x00' ∉ commit) (hname : '\x00' ∉ name) :
    ∀ word ∈ diffWords commit name, '\x00' ∉ word := by
  unfold diffWords
  simp only [List.forall_mem_cons]
  exact ⟨by decide, by decide, by decide, by decide, hcommit, by decide, hname, by simp⟩

theorem null_notMem_contentWords (hcommit : '\x00' ∉ commit) (hname : '\x00' ∉ name) :
    ∀ word ∈ contentWords commit name, '\x00' ∉ word := by
  have hseparator : '\x00' ∉ ":./".toList := by decide
  unfold contentWords
  simp only [List.forall_mem_cons, List.mem_append, not_or]
  exact ⟨by decide, by decide, ⟨⟨hcommit, hseparator⟩, hname⟩, by simp⟩

end

theorem null_notMem_baseName {path : Path} (h : '\x00' ∉ path) : '\x00' ∉ Path.baseName path :=
  fun hmem => h ((Path.baseName_isSuffix path).subset hmem)

/-- The commands for a file come apart into the words that are meant, with the last component of
its path for the file, so that no two commits or components have the same command.  The component
is that of the absolute path, the directory of which git works in, if and only if it is a name. -/
theorem linesRun_words {present commit path : Text} (hpresent : present.head? = some '/')
    (hcommit : '\x00' ∉ commit) (hpath : '\x00' ∉ path)
    (habsolute : Path.baseName (Path.absolute present path) ≠ []) (script : List Execution) :
    (linesRun present script (diffSince · commit path)).map Shell.split? =
        [some (diffWords commit (Path.baseName path))] ∧
      (linesRun present script (contentAt · commit path)).map Shell.split? =
        [some (contentWords commit (Path.baseName path))] ∧
      (∀ commit' path', '\x00' ∉ commit' → '\x00' ∉ path' →
        linesRun present script (diffSince · commit' path') =
          linesRun present script (diffSince · commit path) →
        commit' = commit ∧ Path.baseName path' = Path.baseName path) ∧
      (Path.baseName (Path.absolute present path) = Path.baseName path ↔
        Path.IsName (Path.baseName path)) := by
  have hdiff := null_notMem_diffWords hcommit (null_notMem_baseName hpath)
  refine ⟨?_, ?_, ?_, Path.baseName_absolute_iff hpresent habsolute⟩
  · rw [linesRun_diffSince, List.map_singleton, Shell.split?_commandLine hdiff]
  · rw [linesRun_contentAt, List.map_singleton, Shell.split?_commandLine
      (null_notMem_contentWords hcommit (null_notMem_baseName hpath))]
  · intro commit' path' hcommit' hpath' hlines
    rw [linesRun_diffSince, linesRun_diffSince] at hlines
    have hdiff' := null_notMem_diffWords hcommit' (null_notMem_baseName hpath')
    have hwords := Shell.commandLine_injective hdiff' hdiff (List.singleton_inj.1 hlines)
    simp only [diffWords, List.cons.injEq, true_and, and_true] at hwords
    exact hwords

/-! ## A path full of quotes -/

namespace Hostile

def present : Path := "/work/repo".toList

def commit : Text := "it's $(HEAD)".toList

def path : Path := "src/../a\"b/'é' `x`;\n*.ts".toList

def name : Text := "'é' `x`;\n*.ts".toList

end Hostile

theorem linesRun_words_hostile :
    Hostile.present.head? = some '/' ∧ '\x00' ∉ Hostile.commit ∧ '\x00' ∉ Hostile.path ∧
      Path.baseName (Path.absolute Hostile.present Hostile.path) ≠ [] ∧
      (linesRun Hostile.present [] (diffSince · Hostile.commit Hostile.path)).map Shell.split? =
        [some (diffWords Hostile.commit Hostile.name)] ∧
      (linesRun Hostile.present [] (contentAt · Hostile.commit Hostile.path)).map Shell.split? =
        [some (contentWords Hostile.commit Hostile.name)] ∧
      Path.baseName (Path.absolute Hostile.present Hostile.path) = Hostile.name := by
  have hname : Path.baseName Hostile.path = Hostile.name := by decide +kernel
  have hisName : Path.IsName Hostile.name :=
    ⟨by decide, by decide, by decide, by decide⟩
  have hpresent : Hostile.present.head? = some '/' := by decide
  have hcommit : '\x00' ∉ Hostile.commit := by decide
  have hpath : '\x00' ∉ Hostile.path := by decide
  have habsolute : Path.baseName (Path.absolute Hostile.present Hostile.path) ≠ [] := by
    decide +kernel
  obtain ⟨hdiff, hcontent, -, hiff⟩ := linesRun_words hpresent hcommit hpath habsolute []
  rw [hname] at hdiff hcontent hiff
  exact ⟨hpresent, hcommit, hpath, habsolute, hdiff, hcontent, hiff.2 hisName⟩

/-- A slash at the end leaves no name for git: it is asked about the empty one, in the directory in
which `a` is, and for `b` in the same words. -/
theorem not_linesRun_words_slash :
    Path.baseName (Path.absolute "/work/repo".toList "a/".toList) = "a".toList ∧
      Path.baseName (Path.absolute "/work/repo".toList "b/".toList) = "b".toList ∧
      (linesRun "/work/repo".toList [] (diffSince · "c".toList "a/".toList)).map Shell.split? ≠
        [some (diffWords "c".toList "a".toList)] ∧
      (linesRun "/work/repo".toList [] (contentAt · "c".toList "a/".toList)).map Shell.split? ≠
        [some (contentWords "c".toList "a".toList)] ∧
      linesRun "/work/repo".toList [] (diffSince · "c".toList "a/".toList) =
        linesRun "/work/repo".toList [] (diffSince · "c".toList "b/".toList) := by
  decide +kernel

end Git
end ChangePairs
