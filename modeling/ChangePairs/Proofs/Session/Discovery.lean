import ChangePairs.Proofs.Git.Commit
import ChangePairs.Proofs.Session.Target
import ChangePairs.Proofs.Text.Field

/-!
The changed files, where no targets are named.  Git is asked for the root of the work tree and then
for two listings, of what is not staged and of what is.  If all three commands succeed, the paths
are those of the names in the two listings one behind the other, each where it comes first; if one
fails there are none.  Of these paths the ones with an extension that is learned from are the files
to learn from, and unless there is one it is an error.

The machine here has any three answers in its script, and a listing is the text that its octets are
read as.  The main statement is `resolve_discovers`.
-/

namespace ChangePairs

namespace Git

/-! ## What git is asked -/

def rootCommand (directory : Option Path) : Command :=
  command (directory.getD []) ["rev-parse".toList, "--show-toplevel".toList]

def listingCommand (root : Path) (staged : Bool) : Command :=
  command root <| ["-c".toList, "core.quotePath=false".toList, "diff".toList, "--name-only".toList,
    "-z".toList] ++ (if staged then ["--cached".toList] else []) ++ ["--diff-filter=d".toList]

def namesIn (listing : Text) : List Text := (Text.fields '\x00' listing).filter (!·.isEmpty)

/-- A listing of names: git writes a null character behind each of them. -/
def listingOf (names : List Text) : Text := names.flatMap (· ++ ['\x00'])

theorem namesIn_listingOf {names : List Text} (h : ∀ name ∈ names, name ≠ [] ∧ '\x00' ∉ name) :
    namesIn (listingOf names) = names := by
  induction names with
  | nil => rfl
  | cons name names ih =>
    obtain ⟨⟨hname, hnull⟩, hnames⟩ := List.forall_mem_cons.1 h
    have hfields : Text.fields '\x00' (listingOf (name :: names)) =
        name :: Text.fields '\x00' (listingOf names) := by
      have hne : ∀ c ∈ name, (c == '\x00') = false := by
        intro c hc
        exact beq_false_of_ne fun heq => hnull (heq ▸ hc)
      rw [Text.fields_eq_splitOn, Text.fields_eq_splitOn]
      show (name ++ ['\x00'] ++ listingOf names).splitOn '\x00' = _
      rw [List.append_assoc]
      exact List.splitOnP_append_cons_of_forall_mem hne '\x00' (beq_self_eq_true _) _
    show (Text.fields '\x00' (listingOf (name :: names))).filter _ = _
    rw [hfields, List.filter_cons_of_pos (by simpa using hname)]
    exact congrArg (name :: ·) (ih hnames)

variable {present : Path}

theorem run_root (directory : Option Path) (m : Machine) :
    (root (Machine.host present) directory).run m =
      pure ((written? m.next).map Text.trim, m.afterRun (rootCommand directory)) := by
  have hwords : wordsOf "rev-parse --show-toplevel" =
    ["rev-parse".toList, "--show-toplevel".toList] := by decide
  -- The empty directory is the present one, as no directory is.
  have hdirectory : ∀ words, ask (Machine.host present) words directory =
      ask (Machine.host present) words (some (directory.getD [])) := by
    intro words
    cases directory <;> rfl
  unfold root rootCommand
  rw [hwords, hdirectory, StateT.run_bind, run_ask, pure_bind]
  rfl

theorem run_listing (root : Path) (staged : Bool) (m : Machine) :
    (listing (Machine.host present) root staged).run m =
      pure ((written? m.next).map namesIn, m.afterRun (listingCommand root staged)) := by
  have hwords : wordsOf "-c core.quotePath=false diff --name-only -z" =
    ["-c".toList, "core.quotePath=false".toList, "diff".toList, "--name-only".toList,
      "-z".toList] := by decide
  unfold listing listingCommand
  rw [hwords, StateT.run_bind, run_ask, pure_bind]
  rfl

/-- The three commands, of which each is only run if those before it have succeeded. -/
theorem run_modifiedFiles (directory : Option Path) (m : Machine) :
    (modifiedFiles (Machine.host present) directory).run m =
      let rooted := m.afterRun (rootCommand directory)
      match (written? m.next).map Text.trim with
      | none => pure (none, rooted)
      | some r =>
        let listed := rooted.afterRun (listingCommand r false)
        match (written? rooted.next).map namesIn with
        | none => pure (none, listed)
        | some unstaged =>
          let done := listed.afterRun (listingCommand r true)
          match (written? listed.next).map namesIn with
          | none => pure (none, done)
          | some staged =>
            pure (some (distinct ((unstaged ++ staged).map (Path.join r))), done) := by
  unfold modifiedFiles
  rw [StateT.run_bind, run_root, pure_bind]
  dsimp only
  cases (written? m.next).map Text.trim with
  | none => rfl
  | some r =>
    dsimp only
    rw [StateT.run_bind, run_listing, pure_bind]
    dsimp only
    cases (written? (m.afterRun (rootCommand directory)).next).map namesIn with
    | none => rfl
    | some unstaged =>
      dsimp only
      rw [StateT.run_bind, run_listing, pure_bind]
      dsimp only
      generalize Option.map namesIn _ = staged?
      cases staged? with
      | none => rfl
      | some staged => rfl

def discovery (present : Path) (directory : Option Path) (script : List Execution) :
    Option (List Path) × Machine :=
  (modifiedFiles (Machine.host present) directory).run ⟨script, []⟩

section

variable {root unstaged staged : Execution} (directory : Option Path) (later : List Execution)

theorem discovery_of_written {r u t : Text} (hroot : written? root = some r)
    (hunstaged : written? unstaged = some u) (hstaged : written? staged = some t) :
    discovery present directory (root :: unstaged :: staged :: later) =
      (some (distinct ((namesIn u ++ namesIn t).map (Path.join (Text.trim r)))),
        ⟨later, [(rootCommand directory, root), (listingCommand (Text.trim r) false, unstaged),
          (listingCommand (Text.trim r) true, staged)]⟩) := by
  unfold discovery
  rw [run_modifiedFiles]
  simp only [Machine.next, Machine.afterRun, List.headD_cons, List.tail_cons, hroot, hunstaged,
    hstaged, Option.map_some]
  rfl

theorem discovery_of_failed
    (h : written? root = none ∨ written? unstaged = none ∨ written? staged = none) :
    (discovery present directory (root :: unstaged :: staged :: later)).1 = none := by
  unfold discovery
  rw [run_modifiedFiles]
  simp only [Machine.next, Machine.afterRun, List.headD_cons, List.tail_cons]
  cases hroot : written? root with
  | none => rfl
  | some r =>
    cases hunstaged : written? unstaged with
    | none => rfl
    | some u =>
      have hstaged : written? staged = none := by simpa [hroot, hunstaged] using h
      rw [hstaged]
      rfl

end

end Git

namespace Session

open Git (Machine modifiedFiles written? rootCommand listingCommand namesIn discovery)

theorem resultFrom_resolve (present : Path)
    (source : FileSource (StateT CommitCache (StateM Machine))) (s : Settings)
    (cache : CommitCache) (script : List Execution) :
    resultFrom (resolve (Git.workspaceWith (Machine.host present) source) s []) cache ⟨script, []⟩ =
      match (discovery present none script).1 with
      | none => .error .notListed
      | some found => accepted s found := by
  have hrun : ((Git.workspaceWith (Machine.host present) source).modified.run cache).run
      ⟨script, []⟩ = pure (((discovery present none script).1, cache),
        (discovery present none script).2) := rfl
  unfold resultFrom resolve candidates
  rw [if_pos List.isEmpty_nil, bind_assoc, StateT.run_bind, StateT.run_bind, hrun, pure_bind]
  cases (discovery present none script).1 with
  | none => rfl
  | some found => rfl

theorem resolve_ok_iff {present : Path} {source : FileSource (StateT CommitCache (StateM Machine))}
    {s : Settings} {cache : CommitCache} {script : List Execution} {paths : List Path} :
    resultFrom (resolve (Git.workspaceWith (Machine.host present) source) s []) cache ⟨script, []⟩ =
        .ok paths ↔
      ∃ found, (discovery present none script).1 = some found ∧
        paths ≠ [] ∧ paths = found.filter s.accepts := by
  rw [resultFrom_resolve]
  cases (discovery present none script).1 with
  | none => exact iff_of_false nofun fun ⟨_, h, _⟩ => nomatch h
  | some found =>
    rw [accepted_eq_ok_iff]
    simp only [Option.some.injEq, exists_eq_left']

/-- It is an error only if nothing is found or nothing of what is found is accepted. -/
theorem resolve_error_iff {present : Path}
    {source : FileSource (StateT CommitCache (StateM Machine))} {s : Settings} {cache : CommitCache}
    {script : List Execution} :
    (∃ e, resultFrom (resolve (Git.workspaceWith (Machine.host present) source) s []) cache
        ⟨script, []⟩ = .error e) ↔
      (discovery present none script).1 = none ∨
        ∃ found, (discovery present none script).1 = some found ∧ found.filter s.accepts = [] := by
  rw [resultFrom_resolve]
  cases (discovery present none script).1 with
  | none => exact iff_of_true ⟨.notListed, rfl⟩ (.inl rfl)
  | some found =>
    rw [exists_accepted_eq_error_iff]
    simp only [reduceCtorEq, false_or, Option.some.injEq, exists_eq_left']

/-- If three commands succeed, the paths that are found are those of the names in both listings,
each once and where it comes first; if one fails there are none.  Without targets, those of them
that are accepted are resolved, and it is an error if there are none. -/
theorem resolve_discovers (present : Path)
    (source : FileSource (StateT CommitCache (StateM Machine))) (s : Settings) (cache : CommitCache)
    (root unstaged staged : Execution) (later : List Execution) :
    let script := root :: unstaged :: staged :: later
    let resolved :=
      resultFrom (resolve (Git.workspaceWith (Machine.host present) source) s []) cache ⟨script, []⟩
    (∀ directory r u t,
      written? root = some r → written? unstaged = some u → written? staged = some t →
        ∃ paths, (discovery present directory script).1 = some paths ∧
          (discovery present directory script).2.ran = [(rootCommand directory, root),
            (listingCommand (Text.trim r) false, unstaged),
            (listingCommand (Text.trim r) true, staged)] ∧
          paths.Nodup ∧
          ListsInOrder (fun name path => Path.join (Text.trim r) name = path)
            (namesIn u ++ namesIn t) paths) ∧
    (∀ directory, written? root = none ∨ written? unstaged = none ∨ written? staged = none →
      (discovery present directory script).1 = none) ∧
    (∀ paths, resolved = .ok paths ↔ ∃ found, (discovery present none script).1 = some found ∧
      paths ≠ [] ∧ paths = found.filter s.accepts) ∧
    ((∃ e, resolved = .error e) ↔ (discovery present none script).1 = none ∨
      ∃ found, (discovery present none script).1 = some found ∧ found.filter s.accepts = []) := by
  refine ⟨?_, ?_, fun paths => resolve_ok_iff, resolve_error_iff⟩
  · intro directory r u t hroot hunstaged hstaged
    rw [Git.discovery_of_written directory later hroot hunstaged hstaged]
    exact ⟨_, rfl, rfl, nodup_distinct _, listsInOrder_distinct_map _ _⟩
  · intro directory hfailed
    exact Git.discovery_of_failed directory later hfailed

/-! ## Overlapping listings

Two of three files are listed twice, the other way round, and notes are not learned from. -/

namespace Overlapping

def unstagedNames : List Text := ["b.ts".toList, "a.ts".toList, "notes.txt".toList]

def stagedNames : List Text := ["a.ts".toList, "c.ts".toList, "b.ts".toList]

def root : Execution := .exited 0 (Octets.encode "/work\n".toList) []

def unstaged : Execution := .exited 0 (Octets.encode (Git.listingOf unstagedNames)) []

def staged : Execution := .exited 0 (Octets.encode (Git.listingOf stagedNames)) []

def refused : Execution := .exited 128 [] (Octets.encode "fatal: bad revision\n".toList)

def all : List Path :=
  ["/work/b.ts".toList, "/work/a.ts".toList, "/work/notes.txt".toList, "/work/c.ts".toList]

def paths : List Path := ["/work/b.ts".toList, "/work/a.ts".toList, "/work/c.ts".toList]

def source : FileSource (StateT CommitCache (StateM Machine)) :=
  Git.source (Machine.host []) fun _ _ => return none

def resolved (script : List Execution) : Except TargetError (List Path) :=
  resultFrom (resolve (Git.workspaceWith (Machine.host []) source) plainSettings []) [] ⟨script, []⟩

end Overlapping

theorem resolve_discovers_overlapping :
    (discovery [] none [Overlapping.root, Overlapping.unstaged, Overlapping.staged]).1 =
        some Overlapping.all ∧
      ListsInOrder (fun name path => Path.join "/work".toList name = path)
        (Overlapping.unstagedNames ++ Overlapping.stagedNames) Overlapping.all ∧
      Overlapping.resolved [Overlapping.root, Overlapping.unstaged, Overlapping.staged] =
        .ok Overlapping.paths ∧
      (discovery [] none [Overlapping.root, Overlapping.unstaged, Overlapping.refused]).1 = none ∧
      ∃ e, Overlapping.resolved [Overlapping.root, Overlapping.unstaged, Overlapping.refused] =
        .error e := by
  have hroot : written? Overlapping.root = some "/work\n".toList := by decide +kernel
  have hunstaged :
      written? Overlapping.unstaged = some (Git.listingOf Overlapping.unstagedNames) := by
    decide +kernel
  have hstaged : written? Overlapping.staged = some (Git.listingOf Overlapping.stagedNames) := by
    decide +kernel
  have hall : (discovery [] none
      [Overlapping.root, Overlapping.unstaged, Overlapping.staged]).1 = some Overlapping.all := by
    decide +kernel
  obtain ⟨hfound, -, hok, -⟩ := resolve_discovers [] Overlapping.source plainSettings []
    Overlapping.root Overlapping.unstaged Overlapping.staged []
  obtain ⟨paths, hpaths, -, -, hordered⟩ := hfound none _ _ _ hroot hunstaged hstaged
  obtain rfl := Option.some.inj (hall.symm.trans hpaths)
  rw [Git.namesIn_listingOf (by decide), Git.namesIn_listingOf (by decide)] at hordered
  have haccepted := (hok Overlapping.paths).2 ⟨_, hall, by decide +kernel, by decide +kernel⟩
  obtain ⟨-, hnone, -, herror⟩ := resolve_discovers [] Overlapping.source plainSettings []
    Overlapping.root Overlapping.unstaged Overlapping.refused []
  have hrefused := hnone none (.inr (.inr rfl))
  exact ⟨hall, hordered, haccepted, hrefused, herror.2 (.inl hrefused)⟩

end Session
end ChangePairs
