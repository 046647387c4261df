import ChangePairs.Proofs.Git.Commit
import ChangePairs.Proofs.Path.Normal
import ChangePairs.Proofs.Session.Target

/-!
Targets that were resolved before.  The paths that come of targets are normal, have an extension that
is learned from, and lie in a work tree.  When they are targets themselves, all of this is asked once
more, of the same paths: so they are resolved to themselves if git and the file system stand by
their answers (`IsSteady`), and with them whatever somebody picks among them.

Nothing else of the machine has to stand still, and the commits found so far are left as they are
(`Yields`).  So learning from such paths is learning without choosing files at all.  The main
statement is `resolve_resolved`.
-/

namespace ChangePairs

section

variable {σ τ α β : Type}

/-- The result is the same in every state. -/
def Settled (x : StateM σ α) : Prop := ∀ world world', (x.run world).1 = (x.run world').1

theorem settled_pure (a : α) : Settled (pure a : StateM σ α) := fun _ _ => rfl

theorem Settled.bind {x : StateM σ α} {f : α → StateM σ β} (hx : Settled x)
    (hf : ∀ world, Settled (f (x.run world).1)) : Settled (x >>= f) := by
  intro world world'
  show ((f (x.run world).1).run (x.run world).2).1 = ((f (x.run world').1).run (x.run world').2).1
  rw [hx world world']
  exact hf world' _ _

/-- The result is `a` from every two states, and the inner state stays as it was. -/
def Yields (x : StateT τ (StateM σ) α) (a : α) : Prop :=
  ∀ inner outer, ∃ outer', (x.run inner).run outer = ((a, inner), outer')

theorem yields_pure (a : α) : Yields (pure a : StateT τ (StateM σ) α) a :=
  fun _ outer => ⟨outer, rfl⟩

theorem Yields.bind {x : StateT τ (StateM σ) α} {f : α → StateT τ (StateM σ) β} {a : α} {b : β}
    (hx : Yields x a) (hf : Yields (f a) b) : Yields (x >>= f) b := by
  intro inner outer
  obtain ⟨middle, hfirst⟩ := hx inner outer
  obtain ⟨outer', hthen⟩ := hf inner middle
  refine ⟨outer', ?_⟩
  rw [StateT.run_bind, StateT.run_bind, hfirst]
  exact hthen

theorem Yields.resultFrom_eq {x : StateT τ (StateM σ) α} {a : α} (h : Yields x a) (inner : τ)
    (outer : σ) : resultFrom x inner outer = a := by
  obtain ⟨outer', hrun⟩ := h inner outer
  exact congrArg (fun r => r.1.1) hrun

theorem Yields.resultFrom_bind {x : StateT τ (StateM σ) α} {a : α} (h : Yields x a)
    (f : α → StateT τ (StateM σ) β) (inner : τ) (outer : σ) :
    ∃ outer', resultFrom (x >>= f) inner outer = resultFrom (f a) inner outer' := by
  obtain ⟨outer', hrun⟩ := h inner outer
  refine ⟨outer', ?_⟩
  unfold resultFrom
  rw [StateT.run_bind, StateT.run_bind, hrun]
  rfl

theorem yields_monadLift {x : StateM σ α} (hx : Settled x) (world : σ) :
    Yields (monadLift x : StateT τ (StateM σ) α) (x.run world).1 := by
  intro inner outer
  refine ⟨(x.run outer).2, ?_⟩
  rw [hx world outer]
  rfl

theorem yields_mapM {f : α → StateT τ (StateM σ) β} {g : α → β} {l : List α}
    (h : ∀ a ∈ l, Yields (f a) (g a)) : Yields (l.mapM f) (l.map g) := by
  induction l with
  | nil => exact yields_pure []
  | cons a l ih =>
    rw [List.forall_mem_cons] at h
    rw [List.mapM_cons]
    exact h.1.bind ((ih h.2).bind (yields_pure _))

end

namespace Git

variable {σ : Type}

def directoryAround (h : Host (StateM σ)) (path : Path) : StateM σ Path := do
  return if ← h.files.isDirectory (Path.absolute h.present path) then path
    else Path.directory (Path.absolute h.present path)

/-- Git and the file system stand by what they answer when they are asked whether a path is
tracked. -/
structure IsSteady (h : Host (StateM σ)) (path : Path) : Prop where
  isDirectory : Settled (h.files.isDirectory (Path.absolute h.present path))
  around : ∀ world directory, ((directoryAround h path).run world).1 = directory →
    Settled (h.files.isDirectory (Path.absolute h.present directory)) ∧
      Settled (h.run (command directory ["rev-parse".toList, "--is-inside-work-tree".toList]))

theorem settled_ask {h : Host (StateM σ)} {words : List Text} {directory : Path}
    (hrun : Settled (h.run (command directory words))) : Settled (ask h words (some directory)) := by
  refine Settled.bind (hrun.bind fun world => ?_) fun _ => settled_pure _
  split
  · exact settled_pure _
  · split <;> exact settled_pure _

theorem IsSteady.settled_isInWorkTree {h : Host (StateM σ)} {path : Path}
    (hsteady : IsSteady h path) : Settled (isInWorkTree h path) := by
  unfold isInWorkTree
  refine hsteady.isDirectory.bind fun world => ?_
  obtain ⟨hdirectory, hrun⟩ := hsteady.around world _ rfl
  refine hdirectory.bind fun world' => ?_
  split
  · exact Settled.bind (settled_ask hrun) fun _ => settled_pure _
  · exact settled_pure _

end Git

namespace Session

variable {σ τ : Type}

/-- What becomes of paths when it is known which of them are tracked. -/
def admitted (inside : Path → Bool) (paths : List Path) : Except TargetError (List Path) :=
  if ∀ path ∈ paths, inside path = true then .ok paths
  else .error (.outside (paths.filter fun path => !inside path))

theorem yields_candidates {w : Workspace (StateT τ (StateM σ))} {inside : Path → Bool}
    {targets : List Path} (hne : targets ≠ [])
    (h : ∀ path ∈ targets.map (Path.absolute w.present), Yields (w.tracks path) (inside path)) :
    Yields (candidates w targets) (admitted inside (targets.map (Path.absolute w.present))) := by
  have hempty : ¬ targets.isEmpty = true := by simpa using hne
  unfold candidates
  rw [if_neg hempty]
  refine (yields_mapM h).bind ?_
  rw [← List.map_prod_left_eq_zip, List.filter_map]
  generalize targets.map (Path.absolute w.present) = paths
  have houtside : (paths.filter fun path => !inside path) = [] ↔
      ∀ path ∈ paths, inside path = true := by
    simp [List.filter_eq_nil_iff]
  dsimp only
  split
  · next hnil =>
    rw [admitted, if_pos (houtside.1 (List.map_eq_nil_iff.1 hnil))]
    exact yields_pure _
  · next hsome =>
    rw [admitted, if_neg (fun hall => hsome (List.map_eq_nil_iff.2 (houtside.2 hall))),
      List.map_map]
    -- What is marked and read off again is the same.
    have hid (l : List Path) : l.map (Prod.fst ∘ fun path => (path, inside path)) = l := List.map_id l
    rw [hid]
    exact yields_pure _

theorem yields_resolve {w : Workspace (StateT τ (StateM σ))} (inside : Path → Bool)
    (s : Settings) {targets : List Path} (hne : targets ≠ [])
    (h : ∀ path ∈ targets.map (Path.absolute w.present), Yields (w.tracks path) (inside path)) :
    Yields (resolve w s targets)
      ((admitted inside (targets.map (Path.absolute w.present))).bind (accepted s)) :=
  (yields_candidates hne h).bind (yields_pure _)

theorem admitted_eq_ok_iff {inside : Path → Bool} {paths found : List Path} :
    admitted inside paths = .ok found ↔ (∀ path ∈ paths, inside path = true) ∧ found = paths := by
  unfold admitted
  split
  · next hall => rw [and_iff_right hall, Except.ok.injEq, eq_comm]
  · next hall => exact iff_of_false nofun fun h => hall h.1

theorem bind_accepted_eq_ok_iff {inside : Path → Bool} {s : Settings} {paths found : List Path} :
    (admitted inside paths).bind (accepted s) = .ok found ↔
      (∀ path ∈ paths, inside path = true) ∧ found ≠ [] ∧ found = paths.filter s.accepts := by
  cases hadmitted : admitted inside paths with
  | error e =>
    refine iff_of_false nofun fun h => ?_
    have hok := admitted_eq_ok_iff.2 ⟨h.1, rfl⟩
    rw [hadmitted] at hok
    nomatch hok
  | ok all =>
    obtain ⟨hinside, rfl⟩ := admitted_eq_ok_iff.1 hadmitted
    exact accepted_eq_ok_iff.trans (and_iff_right hinside).symm

/-- Normal paths that are tracked and accepted are resolved to themselves. -/
theorem yields_resolve_self {w : Workspace (StateT τ (StateM σ))} {s : Settings}
    {paths : List Path} (hne : paths ≠ [])
    (hsame : ∀ path ∈ paths, Path.absolute w.present path = path)
    (htracks : ∀ path ∈ paths, Yields (w.tracks path) true)
    (haccepts : ∀ path ∈ paths, s.accepts path = true) :
    Yields (resolve w s paths) (.ok paths) := by
  have hmap : paths.map (Path.absolute w.present) = paths :=
    (List.map_congr_left hsame).trans (List.map_id' paths)
  have hok : (admitted (fun _ => true) paths).bind (accepted s) = .ok paths :=
    bind_accepted_eq_ok_iff.2 ⟨fun _ _ => rfl, hne, (List.filter_eq_self.2 haccepts).symm⟩
  have hyields := yields_resolve (fun _ => true) s hne (by rwa [hmap])
  rwa [hmap, hok] at hyields

/-- Paths that come of targets, and whatever is picked among them, are resolved to themselves, and
what is learned from them is what is learned without choosing files. -/
theorem resolve_resolved {h : Host (StateM σ)} (hpresent : h.present.head? = some '/')
    (source : FileSource (StateT CommitCache (StateM σ))) (s : Settings) {targets : List Path}
    (hne : targets ≠ [])
    (hsteady : ∀ t ∈ targets, Git.IsSteady h (Path.absolute h.present t))
    {cache : CommitCache} {world : σ} {paths : List Path}
    (hpaths : resultFrom (resolve (Git.workspaceWith h source) s targets) cache world = .ok paths) :
    paths ≠ [] ∧ ∀ again, again ≠ [] → again ⊆ paths →
      (∀ cache' world',
        resultFrom (resolve (Git.workspaceWith h source) s again) cache' world' = .ok again) ∧
      ∀ service o, o.targets = again → ∀ cache' world', ∃ world'',
        resultFrom (learn (Git.workspaceWith h source) service s o) cache' world' =
          resultFrom (learnFrom (Git.workspaceWith h source) service s o again) cache' world'' := by
  let w := Git.workspaceWith h source
  let inside (path : Path) : Bool := ((Git.isInWorkTree h path).run world).1
  have htracks : ∀ path ∈ targets.map (Path.absolute w.present),
      Yields (w.tracks path) (inside path) := by
    intro path hpath
    obtain ⟨t, ht, rfl⟩ := List.mem_map.1 hpath
    exact yields_monadLift (hsteady t ht).settled_isInWorkTree world
  have hfirst := (yields_resolve inside s hne htracks).resultFrom_eq cache world
  obtain ⟨hinside, hsome, rfl⟩ := bind_accepted_eq_ok_iff.1 (hfirst.symm.trans hpaths)
  refine ⟨hsome, fun again hagain hsubset => ?_⟩
  have hself : Yields (resolve w s again) (.ok again) := by
    refine yields_resolve_self hagain ?_ ?_ ?_
    · intro path hpath
      obtain ⟨t, -, rfl⟩ := List.mem_map.1 (List.mem_filter.1 (hsubset hpath)).1
      exact Path.absolute_absolute hpresent t
    · intro path hpath
      have hnamed := (List.mem_filter.1 (hsubset hpath)).1
      exact hinside path hnamed ▸ htracks path hnamed
    · intro path hpath
      exact (List.mem_filter.1 (hsubset hpath)).2
  refine ⟨hself.resultFrom_eq, ?_⟩
  rintro service o rfl cache' world'
  rw [learn_eq_resolve_bind]
  exact hself.resultFrom_bind _ cache' world'

/-! ## Files under roundabout names

Three files of which one is picked, and notes that are not learned from.  Two slashes at the start
of a path are a root of their own, which has a directory of the same name. -/

namespace Roundabout

/-- What git answers when it was asked `n` questions: all is one work tree, at ever new commits. -/
def answer (line : Text) (n : Nat) : Execution :=
  if line = "git rev-parse --is-inside-work-tree".toList then
    .exited 0 (Octets.encode "true\n".toList) []
  else .exited 0 (Octets.encode (Text.ofNat n)) []

def host : Host (StateM Nat) where
  present := "/work".toList
  files :=
    { isFile := fun _ => return true
      isDirectory := fun path => return path = "/work".toList ∨ path = "//work".toList
      read := fun _ n => (some (Octets.encode (Text.ofNat n)), n + 1)
      readParts := fun _ n => (some [Octets.encode (Text.ofNat n)], n + 1) }
  run command n := (answer command.line n, n + 1)

theorem settled_run {command : Command}
    (h : command.line = "git rev-parse --is-inside-work-tree".toList) : Settled (host.run command) := by
  intro n n'
  show answer command.line n = answer command.line n'
  unfold answer
  rw [if_pos h, if_pos h]

theorem isSteady (path : Path) : Git.IsSteady host path where
  isDirectory _ _ := rfl
  around _ directory _ := by
    refine ⟨fun _ _ => rfl, settled_run ?_⟩
    show "git ".toList ++ Shell.commandLine _ = _
    decide +kernel

def workspace : Workspace (StateT CommitCache (StateM Nat)) :=
  Git.workspaceWith host (Git.source host fun _ _ => return none)

def targets : List Path :=
  ["./a.ts".toList, "../..//work/b.ts".toList, "notes.txt".toList, "//work/./x/../c.ts".toList]

def paths : List Path := ["/work/a.ts".toList, "/work/b.ts".toList, "//work/c.ts".toList]

def picked : List Path := ["//work/c.ts".toList]

end Roundabout

theorem resolve_resolved_roundabout :
    resultFrom (resolve Roundabout.workspace plainSettings Roundabout.targets) [] 0 =
        .ok Roundabout.paths ∧
      (∀ n, resultFrom (resolve Roundabout.workspace plainSettings Roundabout.paths) [] n =
        .ok Roundabout.paths) ∧
      ∀ n, resultFrom (resolve Roundabout.workspace plainSettings Roundabout.picked) [] n =
        .ok Roundabout.picked := by
  have hpaths : resultFrom (resolve Roundabout.workspace plainSettings Roundabout.targets) [] 0 =
      .ok Roundabout.paths := by
    decide +kernel
  obtain ⟨hne, hagain⟩ := resolve_resolved (h := Roundabout.host) rfl
    (Git.source Roundabout.host fun _ _ => return none) plainSettings (List.cons_ne_nil _ _)
    (fun t _ => Roundabout.isSteady _) hpaths
  have hpicked := hagain Roundabout.picked (List.cons_ne_nil _ _) (by decide)
  exact ⟨hpaths, (hagain Roundabout.paths hne (List.Subset.refl _)).1 [], hpicked.1 []⟩

end Session

end ChangePairs
