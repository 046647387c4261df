import ChangePairs.Git.Workspace
import ChangePairs.Proofs.Failure
import ChangePairs.Proofs.Session.Interaction

/-!
How often a file is learned from.  The changed files that git lists are listed once each, but
targets are taken as they are named, so a file is learned from as often as it is named: the paths
are pairwise distinct exactly when the targets name no file twice (`NamesOnce`).

The main statement is `learn_once`.  Whatever the machine, the source and the service answer, a
request holds for every path the pairs of all its outcomes, and if the targets name no file twice,
those of its one outcome once.
-/

namespace ChangePairs

/-! ## Listed files -/

namespace Git

variable {m : Type → Type} [Monad m]

/-- No path is listed twice, if any are listed. -/
def ListsOnce (modified : m (Option (List Path))) : Prop :=
  SatisfiesM (fun listed => ∀ paths, listed = some paths → paths.Nodup) modified

/-- The workspace of a machine with another source than the one that git keeps. -/
def workspaceWith (h : Host m) (source : FileSource (StateT CommitCache m)) :
    Workspace (StateT CommitCache m) :=
  { workspace h (fun _ _ => return none) with source }

theorem workspaceWith_source (h : Host m) (nodes : Language → Text → m (Option (List Node))) :
    workspaceWith h (source h nodes) = workspace h nodes := rfl

variable [LawfulMonad m]

theorem listsOnce_modifiedFiles (h : Host m) (directory : Option Path) :
    ListsOnce (modifiedFiles h directory) := by
  unfold modifiedFiles
  refine SatisfiesM.bind SatisfiesM.trivial fun root _ => ?_
  cases root with
  | none => exact SatisfiesM.pure nofun
  | some root =>
    refine SatisfiesM.bind SatisfiesM.trivial fun unstaged _ => ?_
    cases unstaged with
    | none => exact SatisfiesM.pure nofun
    | some unstaged =>
      refine SatisfiesM.bind SatisfiesM.trivial fun staged _ => ?_
      cases staged with
      | none => exact SatisfiesM.pure nofun
      | some staged =>
        refine SatisfiesM.pure fun paths hpaths => ?_
        obtain rfl := Option.some.inj hpaths
        exact nodup_distinct _

theorem listsOnce_workspaceWith (h : Host m) (source : FileSource (StateT CommitCache m)) :
    ListsOnce (workspaceWith h source).modified :=
  satisfiesM_monadLift (listsOnce_modifiedFiles h none)

end Git

namespace Session

/-! ## Named files -/

/-- No two targets name the same file that is learned from. -/
def NamesOnce (present : Path) (s : Settings) (targets : List Path) : Prop :=
  targets.Pairwise fun t t' => Path.absolute present t = Path.absolute present t' →
    s.accepts (Path.absolute present t) = false

instance (present : Path) (s : Settings) (targets : List Path) :
    Decidable (NamesOnce present s targets) :=
  inferInstanceAs (Decidable (List.Pairwise _ _))

theorem nodup_filter_absolute_iff {present : Path} {s : Settings} {targets : List Path} :
    ((targets.map (Path.absolute present)).filter s.accepts).Nodup ↔
      NamesOnce present s targets := by
  unfold NamesOnce List.Nodup
  rw [List.pairwise_filter, List.pairwise_map]
  refine List.Pairwise.iff fun t t' => ?_
  constructor
  · intro h heq
    by_contra haccepts
    have haccepts := eq_true_of_ne_false haccepts
    exact h haccepts (heq ▸ haccepts) heq
  · intro h haccepts _ heq
    exact absurd haccepts (ne_true_of_eq_false (h heq))

/-- What the paths that are resolved have to do with the targets. -/
structure Resolves (present : Path) (s : Settings) (targets paths : List Path) : Prop where
  named : targets ≠ [] → paths = (targets.map (Path.absolute present)).filter s.accepts
  nodup_iff : paths.Nodup ↔ NamesOnce present s targets

theorem accepted_eq_ok_iff {s : Settings} {paths found : List Path} :
    accepted s paths = .ok found ↔ found ≠ [] ∧ found = paths.filter s.accepts := by
  unfold accepted
  cases paths.filter s.accepts with
  | nil =>
    refine iff_of_false ?_ (fun h => h.1 h.2)
    dsimp only
    split <;> nofun
  | cons path rest =>
    constructor
    · intro h
      obtain rfl := Except.ok.inj h
      exact ⟨List.cons_ne_nil path rest, rfl⟩
    · rintro ⟨-, rfl⟩
      rfl

theorem exists_accepted_eq_error_iff {s : Settings} {paths : List Path} :
    (∃ e, accepted s paths = .error e) ↔ paths.filter s.accepts = [] := by
  unfold accepted
  cases paths.filter s.accepts with
  | nil =>
    refine iff_of_true ?_ rfl
    dsimp only
    split
    · exact ⟨_, rfl⟩
    · exact ⟨_, rfl⟩
  | cons path rest => exact iff_of_false nofun nofun

theorem filter_of_accepted {s : Settings} {candidates paths : List Path}
    (h : accepted s candidates = .ok paths) : paths = candidates.filter s.accepts :=
  (accepted_eq_ok_iff.1 h).2

section

variable {m : Type → Type} [Monad m] [LawfulMonad m]

theorem ensures_candidates_nil {w : Workspace m} (hmodified : Git.ListsOnce w.modified) :
    Ensures List.Nodup (candidates w []) := by
  unfold candidates
  refine SatisfiesM.bind hmodified fun listed hlisted => ?_
  cases listed with
  | none => exact ensures_error _ _
  | some paths => exact ensures_ok (hlisted paths rfl)

theorem ensures_candidates_cons (w : Workspace m) (t : Path) (targets : List Path) :
    Ensures (fun paths => paths = (t :: targets).map (Path.absolute w.present))
      (candidates w (t :: targets)) := by
  unfold candidates
  refine ensures_bind fun tracked => ?_
  dsimp only
  split
  · exact ensures_ok rfl
  · exact ensures_error _ _

/-- The targets decide whether a path is resolved twice, as long as no changed file is listed
twice. -/
theorem ensures_resolve {w : Workspace m} (s : Settings) (targets : List Path)
    (hmodified : Git.ListsOnce w.modified) :
    Ensures (Resolves w.present s targets) (resolve w s targets) := by
  unfold resolve
  cases targets with
  | nil =>
    refine (ensures_candidates_nil hmodified).bind (fun candidates hcandidates => ?_)
      fun e => ensures_error _ e
    refine SatisfiesM.pure fun paths hpaths => ?_
    obtain rfl := filter_of_accepted hpaths
    exact ⟨fun h => absurd rfl h, iff_of_true (hcandidates.filter _) .nil⟩
  | cons t targets =>
    refine (ensures_candidates_cons w t targets).bind (fun candidates hcandidates => ?_)
      fun e => ensures_error _ e
    refine SatisfiesM.pure fun paths hpaths => ?_
    obtain rfl := filter_of_accepted hpaths
    subst hcandidates
    exact ⟨fun _ => rfl, nodup_filter_absolute_iff⟩

/-! ## What is learned from them -/

def learnFrom (w : Workspace m) (service : Service m) (s : Settings) (o : LearnOptions)
    (paths : List Path) : m (Except Interruption LearnResult) := do
  let outcomes? ← outcomes w.source s o paths
  Interaction.proceed ((clientOr s o).submit service) (outcomes?.map (Interaction.ofFound s o))

theorem learn_eq_resolve_bind (w : Workspace m) (service : Service m) (s : Settings)
    (o : LearnOptions) :
    learn w service s o = resolve w s o.targets >>= fun
      | .error e => return .ok (.early (.target e))
      | .ok paths => learnFrom w service s o paths := by
  rw [learn_eq_bind, found, bind_assoc]
  refine bind_congr fun resolved => ?_
  cases resolved with
  | error e =>
    dsimp only
    rw [pure_bind]
    rfl
  | ok paths => rfl

end

section

variable {σ : Type} {source : FileSource (StateT CommitCache (StateM σ))}

/-- The outcomes of files that are reduced one after the other, the first of them in the given state
of the cache and of the machine. -/
def ReduceTo (source : FileSource (StateT CommitCache (StateM σ))) (plan : Plan)
    (cache : CommitCache) (world : σ) (paths : List Path) (outcomes : List Outcome) : Prop :=
  resultFrom (paths.mapM (Reduction.reduceFile source plan)) cache world = outcomes.map .ok

theorem ReduceTo.map_path {plan : Plan} {cache : CommitCache} {world : σ} {paths : List Path}
    {outcomes : List Outcome} (h : ReduceTo source plan cache world paths outcomes) :
    outcomes.map Outcome.path = paths := by
  have hall := satisfiesM_stateT_stateM_iff.1 (satisfiesM_mapM paths fun path _ =>
    Reduction.ensures_reduceFile source plan path) cache world
  rw [show resultFrom _ cache world = _ from h, List.forall₂_map_right_iff] at hall
  clear h
  induction hall with
  | nil => rfl
  | cons hout _ ih => rw [List.map_cons, (hout _ rfl).named, ih]

theorem exists_of_outcomes {s : Settings} {o : LearnOptions} {paths : List Path}
    {cache : CommitCache} {world : σ} {found : List Outcome}
    (h : resultFrom (Session.outcomes source s o paths) cache world = .ok (.ok found)) :
    ∃ plan, o.plan s = .ok plan ∧ ReduceTo source plan cache world paths found := by
  unfold Session.outcomes at h
  cases hplan : o.plan s with
  | error e =>
    rw [hplan] at h
    nomatch h
  | ok plan =>
    rw [hplan] at h
    refine ⟨plan, rfl, mapM_id_eq_ok_iff.1 ?_⟩
    change (((resultFrom (paths.mapM (Reduction.reduceFile source plan)) cache world).mapM
      id).mapError Interruption.digitLimit).map Except.ok = .ok (.ok found) at h
    obtain ⟨outcomes, hall, ⟨⟩⟩ := map_eq_ok_iff.1 h
    exact mapError_eq_ok_iff.1 hall

/-- A request is made of one outcome for each path. -/
theorem exists_of_learnFrom {w : Workspace (StateT CommitCache (StateM σ))}
    {service : Service (StateT CommitCache (StateM σ))} {s : Settings} {o : LearnOptions}
    {paths : List Path} {cache : CommitCache} {world : σ} {result : LearnResult}
    {r : LearningRequest}
    (hresult : resultFrom (learnFrom w service s o paths) cache world = .ok result)
    (hr : result.request = some r) :
    ∃ plan outcomes, o.plan s = .ok plan ∧ ReduceTo w.source plan cache world paths outcomes ∧
      (Collection.ofOutcomes outcomes).request = .ok r := by
  obtain ⟨⟨⟨found?, cache'⟩, world'⟩, hrun⟩ :
      ∃ found, ((Session.outcomes w.source s o paths).run cache).run world = found := ⟨_, rfl⟩
  have hfound : resultFrom (Session.outcomes w.source s o paths) cache world = found? :=
    congrArg (fun found => found.1.1) hrun
  unfold learnFrom at hresult
  rw [resultFrom_bind_of_run hrun] at hresult
  match found?, hfound with
  | .error interruption, _ => nomatch hresult
  | .ok (.error e), _ =>
    obtain rfl := Except.ok.inj hresult
    nomatch hr
  | .ok (.ok outcomes), hfound =>
    obtain ⟨plan, hplan, hreduce⟩ := exists_of_outcomes hfound
    refine ⟨plan, outcomes, hplan, hreduce, ?_⟩
    have hreports := satisfiesM_stateT_stateM_iff.1
      ((Interaction.isDisciplined_ofOutcomes s o outcomes).ensures_reports
        ((clientOr s o).submit service)) cache' world'
    have hrequest := (hreports result hresult).request.symm.trans hr
    cases hmade : (Collection.ofOutcomes outcomes).request with
    | error e =>
      rw [hmade] at hrequest
      nomatch hrequest
    | ok made =>
      rw [hmade] at hrequest
      exact congrArg Except.ok (Option.some.inj hrequest)

/-- A request comes from paths that were resolved first. -/
theorem exists_learnFrom {w : Workspace (StateT CommitCache (StateM σ))}
    {service : Service (StateT CommitCache (StateM σ))} {s : Settings} {o : LearnOptions}
    {cache : CommitCache} {world : σ} {result : LearnResult} {r : LearningRequest}
    (hresult : resultFrom (learn w service s o) cache world = .ok result)
    (hr : result.request = some r) :
    ∃ paths cache' world',
      ((resolve w s o.targets).run cache).run world = ((.ok paths, cache'), world') ∧
        resultFrom (learnFrom w service s o paths) cache' world' = .ok result := by
  rw [learn_eq_resolve_bind] at hresult
  obtain ⟨⟨⟨paths?, cache'⟩, world'⟩, hrun⟩ :
      ∃ end_, ((resolve w s o.targets).run cache).run world = end_ := ⟨_, rfl⟩
  rw [resultFrom_bind_of_run hrun] at hresult
  cases paths? with
  | error e =>
    obtain rfl := Except.ok.inj hresult
    nomatch hr
  | ok paths => exact ⟨paths, cache', world', hrun, hresult⟩

theorem resolves_of_resolve {h : Host (StateM σ)} {s : Settings} {targets paths : List Path}
    {cache : CommitCache} {world : σ}
    (hpaths : resultFrom (resolve (Git.workspaceWith h source) s targets) cache world = .ok paths) :
    Resolves h.present s targets paths := by
  have hresolves := ensures_resolve s targets (Git.listsOnce_workspaceWith h source)
  exact satisfiesM_stateT_stateM_iff.1 hresolves cache world paths hpaths

/-- The paths that are resolved are pairwise distinct exactly when the targets name no file twice.
Then each outcome stands once in a request, and otherwise one after the other with those of the
same file. -/
theorem learn_once (h : Host (StateM σ)) (source : FileSource (StateT CommitCache (StateM σ)))
    (s : Settings) :
    (∀ targets cache world paths,
      resultFrom (resolve (Git.workspaceWith h source) s targets) cache world = .ok paths →
        Resolves h.present s targets paths) ∧
    ∀ service o cache world result r,
      resultFrom (learn (Git.workspaceWith h source) service s o) cache world = .ok result →
      result.request = some r →
        ∃ paths cache' world' plan outcomes,
          ((resolve (Git.workspaceWith h source) s o.targets).run cache).run world =
            ((.ok paths, cache'), world') ∧
          o.plan s = .ok plan ∧ ReduceTo source plan cache' world' paths outcomes ∧
          outcomes.map Outcome.path = paths ∧
          (∀ path, r.block path = (Collection.pairsOf outcomes path).map (Prod.mk path)) ∧
          (NamesOnce h.present s o.targets →
            ∀ out ∈ outcomes, r.block out.path = out.pairs.map (Prod.mk out.path)) := by
  refine ⟨fun _ _ _ _ => resolves_of_resolve, fun service o cache world result r hresult hr => ?_⟩
  obtain ⟨paths, cache', world', hpaths, hlearned⟩ := exists_learnFrom hresult hr
  obtain ⟨plan, outcomes, hplan, hreduce, hrequest⟩ := exists_of_learnFrom hlearned hr
  refine ⟨paths, cache', world', plan, outcomes, hpaths, hplan, hreduce, hreduce.map_path,
    Collection.block_of_request hrequest, ?_⟩
  intro honce out hout
  -- The outcomes are as distinct as the paths, which are theirs in the same order.
  have hnodup : (outcomes.map Outcome.path).Nodup := by
    rw [hreduce.map_path]
    exact (resolves_of_resolve (congrArg (fun r => r.1.1) hpaths)).nodup_iff.2 honce
  rw [Collection.block_of_request hrequest, Collection.pairsOf_of_nodup hnodup hout]

end

/-! ## A file under two names

Two files with the same change, of which the first is also named with a dot in front. -/

namespace Named

def host : Host (StateM Unit) where
  present := "/work".toList
  files :=
    { isFile := fun path => return path ≠ "/work".toList
      isDirectory := fun path => return path = "/work".toList
      read := fun _ => return some (Octets.encode "b\n".toList)
      readParts := fun _ => return some [Octets.encode "b\n".toList] }
  run command :=
    if command.line = "git rev-parse --is-inside-work-tree".toList then
      return .exited 0 (Octets.encode "true\n".toList) []
    else if command.line = "git rev-parse HEAD".toList then
      return .exited 0 (Octets.encode "c0ffee\n".toList) []
    else if "git show".toList.isPrefixOf command.line then
      return .exited 0 (Octets.encode "a\n".toList) []
    else return .exited 0 (Octets.encode "@@ -1 +1 @@\n-a\n+b\n".toList) []

def source : FileSource (StateT CommitCache (StateM Unit)) :=
  Git.source host fun _ _ => return none

def workspace : Workspace (StateT CommitCache (StateM Unit)) := Git.workspaceWith host source

def service : Service (StateT CommitCache (StateM Unit)) where
  post _ := return .unreachable []
  pause _ := return ()
  spread := return 0

def options (targets : List Path) : LearnOptions := ⟨targets, none, none, none, false, none⟩

def paths (targets : List Path) : Except TargetError (List Path) :=
  resultFrom (resolve workspace plainSettings targets) [] ()

def result (targets : List Path) : Except Interruption LearnResult :=
  resultFrom (learn workspace service plainSettings (options targets)) [] ()

def first : Path := "/work/a.ts".toList

def second : Path := "/work/b.ts".toList

def pair : SnippetPair := ⟨['a'], ['b']⟩

def outcome (path : Path) : Outcome := ⟨path, [pair], []⟩

def request : LearningRequest := ⟨[(first, pair), (second, pair)]⟩

def distinctly : List Path := ["a.ts".toList, "./b.ts".toList]

def twice : List Path := ["a.ts".toList, "./a.ts".toList]

end Named

theorem learn_once_distinctly :
    NamesOnce Named.host.present plainSettings Named.distinctly ∧
      Named.paths Named.distinctly = .ok [Named.first, Named.second] ∧
      [Named.first, Named.second].Nodup ∧
      Named.result Named.distinctly = .ok ⟨some Named.request, [], .prepared⟩ ∧
      ∃ cache plan outcomes,
        ReduceTo Named.source plan cache () [Named.first, Named.second] outcomes ∧
        ∀ out ∈ outcomes, Named.request.block out.path = out.pairs.map (Prod.mk out.path) := by
  have honce : NamesOnce Named.host.present plainSettings Named.distinctly := by decide +kernel
  have hpaths : Named.paths Named.distinctly = .ok [Named.first, Named.second] := by
    decide +kernel
  have hresult : Named.result Named.distinctly = .ok ⟨some Named.request, [], .prepared⟩ := by
    decide +kernel
  obtain ⟨hresolves, hlearned⟩ := learn_once Named.host Named.source plainSettings
  obtain ⟨paths, cache, world, plan, outcomes, hresolved, -, hreduce, -, -, hblock⟩ :=
    hlearned Named.service (Named.options Named.distinctly) [] () _ _ hresult rfl
  obtain rfl := Except.ok.inj (hpaths.symm.trans (congrArg (fun r => r.1.1) hresolved))
  have hnodup := (hresolves _ [] () _ hpaths).nodup_iff.2 honce
  exact ⟨honce, hpaths, hnodup, hresult, cache, plan, outcomes, hreduce, hblock honce⟩

/-- The same path is resolved twice, and the one pair of the file stands twice in the request. -/
theorem not_learn_once_twice :
    ¬ (∀ targets paths, Named.paths targets = .ok paths → paths.Nodup) ∧
      Named.paths Named.twice = .ok [Named.first, Named.first] ∧
      Named.result Named.twice =
        .ok ⟨some ⟨[(Named.first, Named.pair), (Named.first, Named.pair)]⟩, [], .prepared⟩ ∧
      ReduceTo Named.source ⟨.hunks, .position, 4⟩ [] () [Named.first, Named.first]
        [Named.outcome Named.first, Named.outcome Named.first] := by
  have hpaths : Named.paths Named.twice = .ok [Named.first, Named.first] := by decide +kernel
  have hreduce : ReduceTo Named.source ⟨.hunks, .position, 4⟩ [] () [Named.first, Named.first]
      [Named.outcome Named.first, Named.outcome Named.first] := by
    unfold ReduceTo
    decide +kernel
  refine ⟨fun hnodup => ?_, hpaths, by decide +kernel, hreduce⟩
  exact List.not_nodup_cons_of_mem List.mem_cons_self (hnodup _ _ hpaths)

end Session
end ChangePairs
