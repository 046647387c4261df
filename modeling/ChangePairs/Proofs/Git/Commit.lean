import ChangePairs.Git.Source

/-!
The commit that the files of a directory are compared with.  The source that git keeps asks for it
when a file of the directory is first asked about, and holds on to the answer, also when there is
no commit.  So the diff and the version of a file are of one commit although a commit is made
between them.

Here a sequence of calls is put to one source on a machine whose git answers from a script, which
need not make sense: the head may have moved whenever it is asked for.  Each call leaves an entry
with what git was asked meanwhile.  The main statement is `trace_oneCommit`.  Its last part says
that directories are independent: the entries of a directory are those that its own calls make on
their own, given the same answers.
-/

namespace ChangePairs
namespace Git

/-! ## What git is asked -/

def command (directory : Path) (words : List Text) : Command :=
  ⟨"git ".toList ++ Shell.commandLine words, (some directory).filter (!·.isEmpty)⟩

def headCommand (directory : Path) : Command :=
  command directory ["rev-parse".toList, "HEAD".toList]

/-- What a command wrote, unless it failed. -/
def written? : Execution → Option Text
  | .notStarted _ => none
  | .exited code output _ => if code = 0 then some (outputText output) else none

/-- The commit that an answer names: none if git failed or wrote nothing but blanks. -/
def commitIn (answer : Execution) : Option Text :=
  ((written? answer).map Text.trim).filter (!·.isEmpty)

/-! ## Calls -/

inductive Query where
  | commit
  | diff
  | before
deriving DecidableEq

structure Call where
  query : Query
  path : Path
deriving DecidableEq

namespace Call

def directory (present : Path) (call : Call) : Path :=
  Path.directory (Path.absolute present call.path)

/-- The words for git that ask about the file and a commit, if git is to be asked about them. -/
def words? (call : Call) (commit : Text) : Option (List Text) :=
  match call.query with
  | .commit => none
  | .diff => some ["diff".toList, "--no-color".toList, "--no-ext-diff".toList, commit, "--".toList,
      Path.baseName call.path]
  | .before => some ["show".toList, commit ++ ":./".toList ++ Path.baseName call.path]

variable {m : Type → Type} [Monad m]

def ask (h : Host m) (call : Call) : StateT CommitCache m (Option Text) :=
  match call.query with
  | .commit => commitFor h call.path
  | .diff => Git.diff h call.path
  | .before => version h .before call.path

end Call

/-! ## A machine with a script -/

/-- What git is still going to answer, and what it has answered so far. -/
structure Machine where
  script : List Execution
  ran : List (Command × Execution)

namespace Machine

/-- The answer that comes next.  There is no git behind the end of the script. -/
def next (m : Machine) : Execution := m.script.headD (.notStarted [])

def afterRun (m : Machine) (command : Command) : Machine :=
  ⟨m.script.tail, m.ran ++ [(command, m.next)]⟩

def host (present : Path) : Host (StateM Machine) where
  present := present
  files :=
    { isFile := fun _ => return false
      isDirectory := fun _ => return false
      read := fun _ => return none
      readParts := fun _ => return none }
  run command := fun m => (m.next, m.afterRun command)

end Machine

/-- A call, its value, and what git was asked and answered meanwhile. -/
structure Entry where
  call : Call
  value : Option Text
  ran : List (Command × Execution)

def perform (present : Path) (call : Call) (cache : CommitCache) (script : List Execution) :
    Entry × CommitCache × List Execution :=
  let ((value, cache), m) := ((call.ask (Machine.host present)).run cache).run ⟨script, []⟩
  (⟨call, value, m.ran⟩, cache, m.script)

def trace (present : Path) : List Call → CommitCache → List Execution → List Entry
  | [], _, _ => []
  | call :: calls, cache, script =>
    let (entry, cache, script) := perform present call cache script
    entry :: trace present calls cache script

def entriesIn (present directory : Path) (entries : List Entry) : List Entry :=
  entries.filter fun e => e.call.directory present = directory

def commandsOf (entries : List Entry) : List (Command × Execution) :=
  entries.flatMap Entry.ran

/-! ## One commit for each directory -/

/-- What a call comes to when the commit of its directory is settled.  A call for anything else
than the commit asks git about that commit and has the answer as its value; but where there is no
commit, git is not asked, and the value is none as well. -/
def Call.GoesBy (present : Path) (call : Call) (commit? value : Option Text)
    (ran : List (Command × Execution)) : Prop :=
  match commit?.bind call.words? with
  | none => value = commit? ∧ ran = []
  | some words => ∃ answer, value = written? answer ∧
      ran = [(command (call.directory present) words, answer)]

/-- The first call asks for the latest commit before anything else, and all calls go by the one
that it finds. -/
def ShareCommit (present directory : Path) : List Entry → Prop
  | [] => True
  | first :: later => ∃ answer ran, first.ran = (headCommand directory, answer) :: ran ∧
      first.call.GoesBy present (commitIn answer) first.value ran ∧
      ∀ e ∈ later, e.call.GoesBy present (commitIn answer) e.value e.ran

/-! ## What a call does -/

variable {present : Path}

theorem run_ask (words : List Text) (directory : Path) (m : Machine) :
    (ask (Machine.host present) words (some directory)).run m =
      pure (written? m.next, m.afterRun (command directory words)) := by
  have hrun : ((Machine.host present).run (command directory words)).run m =
      pure (m.next, m.afterRun (command directory words)) := rfl
  unfold ask run
  show (((Machine.host present).run (command directory words) >>= _) >>= _).run m = _
  rw [bind_assoc, StateT.run_bind, hrun, pure_bind]
  cases m.next with
  | notStarted reason => rfl
  | exited code output errors =>
    by_cases hcode : code = 0
    · simp [written?, hcode, Except.toOption]
    · simp [written?, hcode, Except.toOption]

theorem run_latestCommit (directory : Path) (m : Machine) :
    (latestCommit (Machine.host present) directory).run m =
      pure (commitIn m.next, m.afterRun (headCommand directory)) := by
  have hwords : wordsOf "rev-parse HEAD" = ["rev-parse".toList, "HEAD".toList] := by decide
  unfold latestCommit commitIn headCommand
  rw [hwords, StateT.run_bind, run_ask, pure_bind]
  cases written? m.next with
  | none => rfl
  | some t =>
    dsimp only [Option.map_some]
    cases Text.trim t with
    | nil => rfl
    | cons c rest => rfl

theorem run_commitFor_of_known {call : Call} {cache : CommitCache} {commit? : Option Text}
    (hget : CommitCache.get? (call.directory present) cache = some commit?) (m : Machine) :
    ((commitFor (Machine.host present) call.path).run cache).run m =
      pure ((commit?, cache), m) := by
  show ((commitOf (Machine.host present) (call.directory present)).run cache).run m = _
  unfold commitOf
  simp [hget]

theorem run_commitFor_of_new {call : Call} {cache : CommitCache}
    (hget : CommitCache.get? (call.directory present) cache = none) (m : Machine) :
    ((commitFor (Machine.host present) call.path).run cache).run m =
      pure ((commitIn m.next, (call.directory present, commitIn m.next) :: cache),
        m.afterRun (headCommand (call.directory present))) := by
  show ((commitOf (Machine.host present) (call.directory present)).run cache).run m = _
  unfold commitOf
  simp [hget, run_latestCommit]

/-- What a call does on a machine when the commit of its directory is settled. -/
def Call.settled (present : Path) (call : Call) (m : Machine) (commit? : Option Text) :
    Option Text × Machine :=
  match commit?.bind call.words? with
  | none => (commit?, m)
  | some words => (written? m.next, m.afterRun (command (call.directory present) words))

section

variable {cache cache' : CommitCache} {commit? : Option Text} {m m' : Machine}

theorem run_withCommit_of_commitFor {path : Path} {query : Text → StateM Machine (Option Text)}
    {settled : Option Text → Option Text × Machine}
    (hcommit : ((commitFor (Machine.host present) path).run cache).run m =
      pure ((commit?, cache'), m'))
    (hnone : settled none = (none, m'))
    (hsome : ∀ commit, (query commit).run m' = pure (settled (some commit))) :
    ((withCommit (Machine.host present) path query).run cache).run m =
      pure (((settled commit?).1, cache'), (settled commit?).2) := by
  unfold withCommit
  rw [StateT.run_bind, StateT.run_bind, hcommit, pure_bind]
  cases commit? with
  | none => simp [hnone]
  | some commit => simp [hsome commit]

theorem run_call {call : Call}
    (hcommit : ((commitFor (Machine.host present) call.path).run cache).run m =
      pure ((commit?, cache'), m')) :
    ((call.ask (Machine.host present)).run cache).run m =
      pure (((call.settled present m' commit?).1, cache'),
        (call.settled present m' commit?).2) := by
  obtain ⟨query, path⟩ := call
  cases query with
  | commit =>
    unfold Call.ask
    rw [hcommit]
    cases commit? <;> rfl
  | diff =>
    have hwords : wordsOf "diff --no-color --no-ext-diff" =
      ["diff".toList, "--no-color".toList, "--no-ext-diff".toList] := by decide
    refine run_withCommit_of_commitFor hcommit rfl fun commit => ?_
    unfold diffSince
    rw [hwords]
    exact run_ask _ _ m'
  | before =>
    refine run_withCommit_of_commitFor hcommit rfl fun commit => ?_
    exact run_ask _ _ m'

theorem perform_of_commitFor {call : Call} {script : List Execution}
    (hcommit : ((commitFor (Machine.host present) call.path).run cache).run ⟨script, []⟩ =
      pure ((commit?, cache'), m')) :
    perform present call cache script =
      (⟨call, (call.settled present m' commit?).1, (call.settled present m' commit?).2.ran⟩,
        cache', (call.settled present m' commit?).2.script) := by
  unfold perform
  rw [run_call hcommit]
  rfl

end

theorem Call.settled_goesBy (call : Call) (m : Machine) (commit? : Option Text) :
    ∃ value ran script, call.settled present m commit? = (value, ⟨script, m.ran ++ ran⟩) ∧
      call.GoesBy present commit? value ran ∧
      ∀ (more : List Execution) (before : List (Command × Execution)),
        call.settled present ⟨ran.map Prod.snd ++ more, before⟩ commit? =
          (value, ⟨more, before ++ ran⟩) := by
  unfold GoesBy settled
  cases commit?.bind call.words? with
  | none => exact ⟨commit?, [], m.script, by simp, ⟨rfl, rfl⟩, by simp⟩
  | some words =>
    exact ⟨written? m.next, [(command (call.directory present) words, m.next)], m.script.tail,
      rfl, ⟨m.next, rfl, rfl⟩, fun more before => rfl⟩

/-- A call for a file of a directory that has been asked about. -/
theorem perform_of_known {call : Call} {cache : CommitCache} {commit? : Option Text}
    (hget : CommitCache.get? (call.directory present) cache = some commit?)
    (script : List Execution) :
    ∃ value ran script', perform present call cache script = (⟨call, value, ran⟩, cache, script') ∧
      call.GoesBy present commit? value ran ∧
      ∀ (other : CommitCache) (more : List Execution),
        CommitCache.get? (call.directory present) other = some commit? →
        perform present call other (ran.map Prod.snd ++ more) =
          (⟨call, value, ran⟩, other, more) := by
  obtain ⟨value, ran, script', hsettled, hgoes, hreplay⟩ :=
    call.settled_goesBy ⟨script, []⟩ commit?
  refine ⟨value, ran, script', ?_, hgoes, ?_⟩
  · rw [perform_of_commitFor (run_commitFor_of_known hget _), hsettled]
    rfl
  · intro other more hother
    rw [perform_of_commitFor (run_commitFor_of_known hother _), hreplay]
    rfl

/-- The first call for a file of a directory. -/
theorem perform_of_new {call : Call} {cache : CommitCache}
    (hget : CommitCache.get? (call.directory present) cache = none) (script : List Execution) :
    ∃ answer value ran script', perform present call cache script =
        (⟨call, value, (headCommand (call.directory present), answer) :: ran⟩,
          (call.directory present, commitIn answer) :: cache, script') ∧
      call.GoesBy present (commitIn answer) value ran ∧
      ∀ (other : CommitCache) (more : List Execution),
        CommitCache.get? (call.directory present) other = none →
        perform present call other (answer :: (ran.map Prod.snd ++ more)) =
          (⟨call, value, (headCommand (call.directory present), answer) :: ran⟩,
            (call.directory present, commitIn answer) :: other, more) := by
  obtain ⟨value, ran, script', hsettled, hgoes, hreplay⟩ := call.settled_goesBy
    ((Machine.mk script []).afterRun (headCommand (call.directory present)))
    (commitIn (Machine.mk script []).next)
  refine ⟨_, value, ran, script', ?_, hgoes, ?_⟩
  · rw [perform_of_commitFor (run_commitFor_of_new hget _), hsettled]
    rfl
  · intro other more hother
    rw [perform_of_commitFor (run_commitFor_of_new hother _)]
    have hasked : (Machine.mk ((Machine.mk script []).next :: (ran.map Prod.snd ++ more))
        []).afterRun (headCommand (call.directory present)) =
      ⟨ran.map Prod.snd ++ more,
        [(headCommand (call.directory present), (Machine.mk script []).next)]⟩ := rfl
    have hnext : (Machine.mk ((Machine.mk script []).next :: (ran.map Prod.snd ++ more))
        []).next = (Machine.mk script []).next := rfl
    rw [hasked, hnext, hreplay]
    rfl

/-! ## One call after the other -/

theorem get?_cons_self (directory : Path) (commit? : Option Text) (cache : CommitCache) :
    CommitCache.get? directory ((directory, commit?) :: cache) = some commit? :=
  if_pos rfl

theorem get?_cons_of_ne {directory other : Path} (h : other ≠ directory) (commit? : Option Text)
    (cache : CommitCache) :
    CommitCache.get? directory ((other, commit?) :: cache) = CommitCache.get? directory cache :=
  if_neg h

theorem headCommand_injective {d d' : Path} (h : headCommand d = headCommand d') : d = d' := by
  have hfilter : (some d).filter (!·.isEmpty) = (some d').filter (!·.isEmpty) :=
    congrArg Command.directory h
  cases d <;> cases d' <;> simp_all [Option.filter]

theorem Call.command_ne_headCommand {call : Call} {commit : Text} {words : List Text}
    (hwords : call.words? commit = some words) (d d' : Path) :
    command d words ≠ headCommand d' := by
  intro h
  have hline := congrArg (fun c : Command => c.line[4]?) h
  have hhead : (headCommand d').line[4]? = some 'r' := rfl
  obtain ⟨query, path⟩ := call
  cases query with
  | commit => nomatch hwords
  | diff =>
    obtain rfl := Option.some.inj hwords
    have hdiff : (some 'd' : Option Char) = some 'r' := hline.trans hhead
    simp at hdiff
  | before =>
    obtain rfl := Option.some.inj hwords
    have hshow : (some 's' : Option Char) = some 'r' := hline.trans hhead
    simp at hshow

theorem Call.GoesBy.headCommand_notMem {call : Call} {commit? value : Option Text}
    {ran : List (Command × Execution)} (h : call.GoesBy present commit? value ran) (d : Path) :
    headCommand d ∉ ran.map Prod.fst := by
  unfold GoesBy at h
  cases hwords : commit?.bind call.words? with
  | none =>
    rw [hwords] at h
    rw [h.2]
    exact List.not_mem_nil
  | some words =>
    rw [hwords] at h
    obtain ⟨answer, -, rfl⟩ := h
    obtain ⟨commit, -, hcommit⟩ := Option.bind_eq_some_iff.1 hwords
    intro hmem
    have heq := List.mem_singleton.1 hmem
    exact Call.command_ne_headCommand hcommit _ _ heq.symm

/-- What a call may do about a directory, given what is known of it before and after.  It belongs
to another directory, it is the first one to ask, or it goes by what is known. -/
inductive Advances (present directory : Path) (call : Call) :
    Option (Option Text) → Entry → Option (Option Text) → Prop where
  | elsewhere {known : Option (Option Text)} {value : Option Text}
      {ran : List (Command × Execution)} (hdirectory : call.directory present ≠ directory)
      (hran : headCommand directory ∉ ran.map Prod.fst) :
      Advances present directory call known ⟨call, value, ran⟩ known
  | first {answer : Execution} {value : Option Text} {ran : List (Command × Execution)}
      (hdirectory : call.directory present = directory)
      (hgoes : call.GoesBy present (commitIn answer) value ran) :
      Advances present directory call none
        ⟨call, value, (headCommand directory, answer) :: ran⟩ (some (commitIn answer))
  | later {commit? value : Option Text} {ran : List (Command × Execution)}
      (hdirectory : call.directory present = directory)
      (hgoes : call.GoesBy present commit? value ran) :
      Advances present directory call (some commit?) ⟨call, value, ran⟩ (some commit?)

theorem Advances.entry_eq {directory : Path} {call : Call} {known known' : Option (Option Text)}
    {entry : Entry} (h : Advances present directory call known entry known') :
    entry = ⟨call, entry.value, entry.ran⟩ ∧
      (call.directory present ≠ directory → known' = known) := by
  cases h with
  | elsewhere hdirectory hran => exact ⟨rfl, fun _ => rfl⟩
  | first hdirectory hgoes => exact ⟨rfl, fun hne => absurd hdirectory hne⟩
  | later hdirectory hgoes => exact ⟨rfl, fun _ => rfl⟩

variable (present) in
/-- Every call does one of these, whatever was known and whatever git answers. -/
theorem advances_perform (directory : Path) (call : Call) (cache : CommitCache)
    (script : List Execution) :
    Advances present directory call (CommitCache.get? directory cache)
      (perform present call cache script).1
      (CommitCache.get? directory (perform present call cache script).2.1) := by
  by_cases hdirectory : call.directory present = directory
  · subst hdirectory
    cases hget : CommitCache.get? (call.directory present) cache with
    | some commit? =>
      obtain ⟨value, ran, script', hperform, hgoes, -⟩ := perform_of_known hget script
      rw [hperform, hget]
      exact .later rfl hgoes
    | none =>
      obtain ⟨answer, value, ran, script', hperform, hgoes, -⟩ := perform_of_new hget script
      rw [hperform, get?_cons_self]
      exact .first rfl hgoes
  · cases hget : CommitCache.get? (call.directory present) cache with
    | some commit? =>
      obtain ⟨value, ran, script', hperform, hgoes, -⟩ := perform_of_known hget script
      rw [hperform]
      exact .elsewhere hdirectory (hgoes.headCommand_notMem directory)
    | none =>
      obtain ⟨answer, value, ran, script', hperform, hgoes, -⟩ := perform_of_new hget script
      rw [hperform, get?_cons_of_ne hdirectory]
      refine .elsewhere hdirectory ?_
      intro hmem
      rcases List.mem_cons.1 hmem with hhead | hrest
      · exact hdirectory (headCommand_injective hhead).symm
      · exact hgoes.headCommand_notMem directory hrest

variable (present) in
/-- A call does the same again whatever is known of other directories, if git answers the same. -/
theorem perform_replay (call : Call) (cache other : CommitCache) (script more : List Execution)
    (hother : CommitCache.get? (call.directory present) other =
      CommitCache.get? (call.directory present) cache) :
    ∃ other', perform present call other
        ((perform present call cache script).1.ran.map Prod.snd ++ more) =
          ((perform present call cache script).1, other', more) ∧
      CommitCache.get? (call.directory present) other' =
        CommitCache.get? (call.directory present) (perform present call cache script).2.1 := by
  cases hget : CommitCache.get? (call.directory present) cache with
  | some commit? =>
    obtain ⟨value, ran, script', hperform, -, hreplay⟩ := perform_of_known hget script
    rw [hperform]
    exact ⟨other, hreplay other more (hother.trans hget), hother⟩
  | none =>
    obtain ⟨answer, value, ran, script', hperform, -, hreplay⟩ := perform_of_new hget script
    rw [hperform]
    refine ⟨_, hreplay other more (hother.trans hget), ?_⟩
    rw [get?_cons_self, get?_cons_self]

/-! ## All calls -/

theorem trace_cons (call : Call) (calls : List Call) (cache : CommitCache)
    (script : List Execution) :
    trace present (call :: calls) cache script =
      (perform present call cache script).1 ::
        trace present calls (perform present call cache script).2.1
          (perform present call cache script).2.2 := rfl

section

variable {directory : Path} {call : Call} {value : Option Text}
  {ran : List (Command × Execution)} {entries : List Entry}

theorem entriesIn_cons_of_eq (h : call.directory present = directory) :
    entriesIn present directory (⟨call, value, ran⟩ :: entries) =
      ⟨call, value, ran⟩ :: entriesIn present directory entries :=
  List.filter_cons_of_pos (by simpa using h)

theorem entriesIn_cons_of_ne (h : call.directory present ≠ directory) :
    entriesIn present directory (⟨call, value, ran⟩ :: entries) =
      entriesIn present directory entries :=
  List.filter_cons_of_neg (by simpa using h)

end

variable (present) in
/-- Once a commit is settled, all calls go by it and none asks for it again. -/
theorem goesBy_trace {directory : Path} {commit? : Option Text} (calls : List Call)
    {cache : CommitCache} (script : List Execution)
    (hget : CommitCache.get? directory cache = some commit?) :
    (∀ e ∈ entriesIn present directory (trace present calls cache script),
      e.call.GoesBy present commit? e.value e.ran) ∧
      headCommand directory ∉ (commandsOf (trace present calls cache script)).map Prod.fst := by
  induction calls generalizing cache script with
  | nil => exact ⟨(fun e he => nomatch he), List.not_mem_nil⟩
  | cons call calls ih =>
    have hstep := advances_perform present directory call cache script
    rw [trace_cons, commandsOf, List.flatMap_cons, List.map_append]
    rw [hget] at hstep
    generalize perform present call cache script = performed at hstep ⊢
    obtain ⟨entry, cache', script'⟩ := performed
    dsimp only at hstep ⊢
    generalize hknown : CommitCache.get? directory cache' = known at hstep
    cases hstep with
    | elsewhere hdirectory hran =>
      obtain ⟨hgoes, hnot⟩ := ih script' hknown
      rw [entriesIn_cons_of_ne hdirectory]
      refine ⟨hgoes, fun hmem => ?_⟩
      rcases List.mem_append.1 hmem with h | h
      · exact hran h
      · exact hnot h
    | later hdirectory hgoes =>
      obtain ⟨hrest, hnot⟩ := ih script' hknown
      rw [entriesIn_cons_of_eq hdirectory]
      refine ⟨List.forall_mem_cons.2 ⟨hgoes, hrest⟩, fun hmem => ?_⟩
      rcases List.mem_append.1 hmem with h | h
      · exact hgoes.headCommand_notMem directory h
      · exact hnot h

variable (present) in
/-- Before a commit is settled, the first call of the directory settles it. -/
theorem shareCommit_trace {directory : Path} (calls : List Call) {cache : CommitCache}
    (script : List Execution) (hget : CommitCache.get? directory cache = none) :
    ShareCommit present directory
        (entriesIn present directory (trace present calls cache script)) ∧
      ((commandsOf (trace present calls cache script)).map Prod.fst).count
        (headCommand directory) ≤ 1 := by
  induction calls generalizing cache script with
  | nil => exact ⟨trivial, Nat.zero_le 1⟩
  | cons call calls ih =>
    have hstep := advances_perform present directory call cache script
    rw [trace_cons, commandsOf, List.flatMap_cons, List.map_append, List.count_append]
    rw [hget] at hstep
    generalize perform present call cache script = performed at hstep ⊢
    obtain ⟨entry, cache', script'⟩ := performed
    dsimp only at hstep ⊢
    generalize hknown : CommitCache.get? directory cache' = known at hstep
    cases hstep with
    | elsewhere hdirectory hran =>
      obtain ⟨hshare, hcount⟩ := ih script' hknown
      rw [entriesIn_cons_of_ne hdirectory, List.count_eq_zero.2 hran]
      exact ⟨hshare, by rw [Nat.zero_add]; exact hcount⟩
    | @first answer value ran hdirectory hgoes =>
      obtain ⟨hrest, hnot⟩ := goesBy_trace present calls script' hknown
      have hran := List.count_eq_zero.2 (hgoes.headCommand_notMem directory)
      have hlater := List.count_eq_zero.2 hnot
      rw [entriesIn_cons_of_eq hdirectory]
      refine ⟨⟨answer, ran, rfl, hgoes, hrest⟩, ?_⟩
      show ((headCommand directory :: ran.map Prod.fst).count (headCommand directory)) +
        ((commandsOf _).map Prod.fst).count (headCommand directory) ≤ 1
      rw [List.count_cons_self, hran]
      omega

variable (present) in
/-- The calls of a directory do the same on their own, if git gives them the same answers. -/
theorem trace_filter {directory : Path} (calls : List Call) {cache other : CommitCache}
    (script more : List Execution)
    (hother : CommitCache.get? directory other = CommitCache.get? directory cache) :
    trace present (calls.filter fun call => call.directory present = directory) other
        ((commandsOf (entriesIn present directory (trace present calls cache script))).map
          Prod.snd ++ more) =
      entriesIn present directory (trace present calls cache script) := by
  induction calls generalizing cache other script with
  | nil => rfl
  | cons call calls ih =>
    have hstep := advances_perform present directory call cache script
    have hagain := perform_replay present call cache other script
    rw [trace_cons]
    generalize perform present call cache script = performed at hstep hagain ⊢
    obtain ⟨entry, cache', script'⟩ := performed
    dsimp only at hstep hagain ⊢
    obtain ⟨hentry, hknown⟩ := hstep.entry_eq
    by_cases hdirectory : call.directory present = directory
    · subst hdirectory
      rw [hentry, entriesIn_cons_of_eq rfl, ← hentry, List.filter_cons_of_pos (by simp), commandsOf,
        List.flatMap_cons, List.map_append, List.append_assoc, trace_cons]
      obtain ⟨other', hreplay, hother'⟩ := hagain _ hother
      rw [hreplay]
      exact congrArg _ (ih script' hother')
    · rw [hentry, entriesIn_cons_of_ne hdirectory,
        List.filter_cons_of_neg (by simpa using hdirectory)]
      exact ih script' (hother.trans (hknown hdirectory).symm)

/-- Whatever a source is called for and whatever git answers, the calls of each directory share one
commit.  Git is asked for it at most once, and then what is asked in the directory is asked about
that commit; and what is asked in other directories makes no difference to it. -/
theorem trace_oneCommit (present directory : Path) (calls : List Call) (script : List Execution) :
    ShareCommit present directory
        (entriesIn present directory (trace present calls [] script)) ∧
      ((commandsOf (trace present calls [] script)).map Prod.fst).count
        (headCommand directory) ≤ 1 ∧
      trace present (calls.filter fun call => call.directory present = directory) []
          ((commandsOf (entriesIn present directory (trace present calls [] script))).map
            Prod.snd) =
        entriesIn present directory (trace present calls [] script) := by
  have hnew : CommitCache.get? directory [] = none := rfl
  obtain ⟨hshare, hcount⟩ := shareCommit_trace present calls script hnew
  have halone := trace_filter present calls script [] (hnew.trans hnew.symm)
  rw [List.append_nil] at halone
  exact ⟨hshare, hcount, halone⟩

/-- The head moves after the diff of a file, and its version is still that of the first commit. -/
example :
    ((commandsOf (trace "/work".toList
      [⟨.diff, "a.ts".toList⟩, ⟨.commit, "/b.ts".toList⟩, ⟨.before, "/work/./a.ts".toList⟩] []
      [.exited 0 (Octets.encode "c0ffee\n".toList) [], .exited 0 [] [],
        .exited 0 (Octets.encode "beef\n".toList) [], .exited 0 [] []])).map fun ran => ran.1.line) =
      ["git rev-parse HEAD".toList, "git diff --no-color --no-ext-diff c0ffee -- a.ts".toList,
        "git rev-parse HEAD".toList, "git show c0ffee:./a.ts".toList] := by
  decide +kernel

end Git
end ChangePairs
