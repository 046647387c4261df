import Mathlib.Data.List.Induction
import ChangePairs.Collection
import ChangePairs.Proofs.Distinct

/-!
What is collected from outcomes.  The files are the paths of the outcomes that have a pair, in the
order of the first one, and the pairs of a file are those of its outcomes in their order
(`pairsOf`).  `byFile_ofOutcomes` says so of a collection: one more outcome either adds to the end
of a file's pairs or adds a file at the end, and the rest is by induction on the outcomes from the
last one back.

The main statement, `ofOutcomes_groups`, says what can be read off a collection, and that outcomes
in another order only move the files, as long as those of one file keep their order.
-/

namespace ChangePairs

namespace LearningRequest

def block (r : LearningRequest) (path : Path) : List (Path × SnippetPair) :=
  r.snippets.filter fun snippet => snippet.1 = path

end LearningRequest

namespace Collection

def pairsOf (outcomes : List Outcome) (path : Path) : List SnippetPair :=
  (outcomes.filter fun o => o.path = path).flatMap Outcome.pairs

/-- The files with a pair among outcomes, in the order of the first outcome that has one. -/
def filesOf (outcomes : List Outcome) : List Path :=
  distinct ((outcomes.filter fun o => !o.pairs.isEmpty).map Outcome.path)

variable {outcomes : List Outcome} {o : Outcome} {path : Path}

theorem mem_filesOf : path ∈ filesOf outcomes ↔ ∃ o ∈ outcomes, o.pairs ≠ [] ∧ o.path = path := by
  unfold filesOf
  rw [mem_distinct_filter]
  simp

theorem nodup_filesOf (outcomes : List Outcome) : (filesOf outcomes).Nodup := nodup_distinct _

theorem listsInOrder_filesOf (outcomes : List Outcome) :
    ListsInOrder (fun o path => o.pairs ≠ [] ∧ o.path = path) outcomes (filesOf outcomes) := by
  refine (listsInOrder_distinct (fun o : Outcome => !o.pairs.isEmpty) Outcome.path outcomes).congr
    fun o _ path => ?_
  simp

theorem pairsOf_eq_nil (h : path ∉ filesOf outcomes) : pairsOf outcomes path = [] := by
  unfold pairsOf
  rw [List.flatMap_eq_nil_iff]
  intro o ho
  obtain ⟨hmem, hpath⟩ := List.mem_filter.1 ho
  by_contra hpairs
  exact h (mem_filesOf.2 ⟨o, hmem, hpairs, of_decide_eq_true hpath⟩)

/-- Where no two outcomes are of the same file, the pairs of a file are those of its outcome. -/
theorem pairsOf_of_nodup (hnodup : (outcomes.map Outcome.path).Nodup) (ho : o ∈ outcomes) :
    pairsOf outcomes o.path = o.pairs := by
  have hfilter : (outcomes.filter fun o' => o'.path = o.path) = [o] := by
    induction outcomes with
    | nil => nomatch ho
    | cons first outcomes ih =>
      obtain ⟨hfirst, hrest⟩ := List.nodup_cons.1 hnodup
      rcases List.mem_cons.1 ho with rfl | ho
      · have hnone : (outcomes.filter fun o' => o'.path = o.path) = [] := by
          rw [List.filter_eq_nil_iff]
          intro o' ho' hpath
          exact hfirst (of_decide_eq_true hpath ▸ List.mem_map_of_mem ho')
        rw [List.filter_cons_of_pos (by simp), hnone]
      · have hne : first.path ≠ o.path := fun heq => hfirst (heq ▸ List.mem_map_of_mem ho)
        rw [List.filter_cons_of_neg (by simpa using hne), ih hrest ho]
  rw [pairsOf, hfilter, List.flatMap_singleton]

/-! ## One more outcome -/

theorem pairsOf_concat (outcomes : List Outcome) (o : Outcome) (path : Path) :
    pairsOf (outcomes ++ [o]) path =
      if path = o.path then pairsOf outcomes path ++ o.pairs else pairsOf outcomes path := by
  unfold pairsOf
  rw [List.filter_append, List.flatMap_append]
  by_cases hpath : path = o.path
  · rw [if_pos hpath, List.filter_singleton, hpath]
    simp
  · rw [if_neg hpath, List.filter_singleton]
    simp [Ne.symm hpath]

theorem filesOf_concat (outcomes : List Outcome) (o : Outcome) :
    filesOf (outcomes ++ [o]) =
      if o.pairs = [] ∨ o.path ∈ filesOf outcomes then filesOf outcomes
      else filesOf outcomes ++ [o.path] := by
  unfold filesOf
  rw [List.filter_append, List.map_append, List.filter_singleton]
  by_cases hpairs : o.pairs = []
  · simp [hpairs]
  · have hkept : (!o.pairs.isEmpty) = true := by simpa using hpairs
    rw [hkept, cond_true, List.map_singleton, distinct_concat]
    by_cases hmem : o.path ∈ distinct ((outcomes.filter fun o => !o.pairs.isEmpty).map Outcome.path)
    · rw [if_pos (mem_distinct.1 hmem), if_pos (.inr hmem)]
    · rw [if_neg (mt mem_distinct.2 hmem), if_neg (not_or.2 ⟨hpairs, hmem⟩)]

section

variable {files : List Path} {f : Path → List SnippetPair} {pairs : List SnippetPair}

theorem insert_of_not_mem (h : path ∉ files) :
    insert path pairs (files.map fun p => (p, f p)) =
      files.map (fun p => (p, f p)) ++ [(path, pairs)] := by
  induction files with
  | nil => rfl
  | cons p files ih =>
    obtain ⟨hne, hrest⟩ := not_or.1 (mt List.mem_cons.2 h)
    rw [List.map_cons, insert, if_neg (Ne.symm hne), ih hrest, List.cons_append]

theorem insert_of_mem (hnodup : files.Nodup) (h : path ∈ files) :
    insert path pairs (files.map fun p => (p, f p)) =
      files.map fun p => (p, if p = path then f p ++ pairs else f p) := by
  induction files with
  | nil => nomatch h
  | cons p files ih =>
    obtain ⟨hfirst, hnodup⟩ := List.nodup_cons.1 hnodup
    rw [List.map_cons, List.map_cons, insert]
    by_cases hp : p = path
    · rw [if_pos hp, if_pos hp]
      -- The file stands only once, so what follows stays as it is.
      have hrest : ∀ q ∈ files, (q, f q) = (q, if q = path then f q ++ pairs else f q) := by
        intro q hq
        have hne : q ≠ path := fun heq => hfirst (hp.trans heq.symm ▸ hq)
        rw [if_neg hne]
      rw [List.map_congr_left hrest]
    · rw [if_neg hp, if_neg hp, ih hnodup ((List.mem_cons.1 h).resolve_left (Ne.symm hp))]

end

theorem byFile_add {c : Collection}
    (h : c.byFile = (filesOf outcomes).map fun p => (p, pairsOf outcomes p)) (o : Outcome) :
    (c.add o).byFile =
      (filesOf (outcomes ++ [o])).map fun p => (p, pairsOf (outcomes ++ [o]) p) := by
  unfold add
  dsimp only
  simp only [pairsOf_concat]
  by_cases hpairs : o.pairs = []
  · have hfiles : filesOf (outcomes ++ [o]) = filesOf outcomes := by
      rw [filesOf_concat, if_pos (.inl hpairs)]
    rw [hfiles, h, hpairs]
    simp
  · have hkept : o.pairs.isEmpty = false := by simpa using hpairs
    rw [hkept, if_neg Bool.false_ne_true, h, filesOf_concat]
    -- Either the file is listed and its pairs grow, or it had none so far and comes last.
    by_cases hmem : o.path ∈ filesOf outcomes
    · rw [if_pos (.inr hmem), insert_of_mem (nodup_filesOf outcomes) hmem]
    · have hnew : pairsOf outcomes o.path = [] := pairsOf_eq_nil hmem
      have hrest : ∀ p ∈ filesOf outcomes,
          (p, if p = o.path then pairsOf outcomes p ++ o.pairs else pairsOf outcomes p) =
            (p, pairsOf outcomes p) := by
        intro p hp
        have hne : p ≠ o.path := fun heq => hmem (heq ▸ hp)
        rw [if_neg hne]
      rw [if_neg (not_or.2 ⟨hpairs, hmem⟩), insert_of_not_mem hmem, List.map_append,
        List.map_congr_left hrest, List.map_singleton, if_pos rfl, hnew, List.nil_append]

/-! ## All outcomes -/

theorem ofOutcomes_concat (outcomes : List Outcome) (o : Outcome) :
    ofOutcomes (outcomes ++ [o]) = (ofOutcomes outcomes).add o := by
  unfold ofOutcomes
  rw [List.foldl_append]
  rfl

theorem byFile_ofOutcomes (outcomes : List Outcome) :
    (ofOutcomes outcomes).byFile =
      (filesOf outcomes).map fun p => (p, pairsOf outcomes p) := by
  induction outcomes using List.reverseRecOn with
  | nil => rfl
  | append_singleton outcomes o ih =>
    rw [ofOutcomes_concat]
    exact byFile_add ih o

theorem seen_ofOutcomes (outcomes : List Outcome) :
    (ofOutcomes outcomes).seen = outcomes.length := by
  induction outcomes using List.reverseRecOn with
  | nil => rfl
  | append_singleton outcomes o ih =>
    rw [ofOutcomes_concat, List.length_append, List.length_singleton, ← ih]
    rfl

theorem diagnostics_ofOutcomes (outcomes : List Outcome) :
    (ofOutcomes outcomes).diagnostics = outcomes.flatMap Outcome.diagnostics := by
  induction outcomes using List.reverseRecOn with
  | nil => rfl
  | append_singleton outcomes o ih =>
    rw [ofOutcomes_concat, List.flatMap_append, List.flatMap_singleton, ← ih]
    rfl

theorem files_ofOutcomes (outcomes : List Outcome) :
    (ofOutcomes outcomes).files = filesOf outcomes := by
  unfold files
  rw [byFile_ofOutcomes, List.map_map]
  exact List.map_id _

theorem isEmpty_ofOutcomes_iff :
    (ofOutcomes outcomes).isEmpty = true ↔ ∀ o ∈ outcomes, o.pairs = [] := by
  unfold isEmpty
  rw [byFile_ofOutcomes, List.isEmpty_iff, List.map_eq_nil_iff, List.eq_nil_iff_forall_not_mem]
  simp only [mem_filesOf]
  grind

theorem mem_pairsOf {pair : SnippetPair} :
    pair ∈ pairsOf outcomes path ↔ ∃ o ∈ outcomes, o.path = path ∧ pair ∈ o.pairs := by
  unfold pairsOf
  simp only [List.mem_flatMap, List.mem_filter, decide_eq_true_eq, and_assoc]

theorem mem_pairs_ofOutcomes {pair : SnippetPair} :
    pair ∈ (ofOutcomes outcomes).pairs ↔ ∃ o ∈ outcomes, pair ∈ o.pairs := by
  unfold pairs
  rw [byFile_ofOutcomes, List.flatMap_map, List.mem_flatMap]
  constructor
  · rintro ⟨path, -, hpair⟩
    obtain ⟨o, ho, -, hpair⟩ := mem_pairsOf.1 hpair
    exact ⟨o, ho, hpair⟩
  · rintro ⟨o, ho, hpair⟩
    exact ⟨o.path, mem_filesOf.2 ⟨o, ho, List.ne_nil_of_mem hpair, rfl⟩,
      mem_pairsOf.2 ⟨o, ho, rfl, hpair⟩⟩

/-! ## The request -/

theorem request_eq_error_iff {e : NothingToLearn} :
    (ofOutcomes outcomes).request = .error e ↔
      (ofOutcomes outcomes).isEmpty = true ∧ e.files = outcomes.length := by
  unfold request
  rw [seen_ofOutcomes]
  cases (ofOutcomes outcomes).isEmpty with
  | true =>
    obtain ⟨files⟩ := e
    simp [eq_comm]
  | false => simp

theorem pairs_ne_nil_of_request {r : LearningRequest} (h : (ofOutcomes outcomes).request = .ok r) :
    (ofOutcomes outcomes).pairs ≠ [] := by
  have hnonempty : ¬ (ofOutcomes outcomes).isEmpty = true := by
    intro hempty
    rw [request, if_pos hempty] at h
    nomatch h
  rw [isEmpty_ofOutcomes_iff] at hnonempty
  push Not at hnonempty
  obtain ⟨o, ho, hpairs⟩ := hnonempty
  obtain ⟨pair, hpair⟩ := List.exists_mem_of_ne_nil _ hpairs
  exact List.ne_nil_of_mem (mem_pairs_ofOutcomes.2 ⟨o, ho, hpair⟩)

theorem snippets_of_request {r : LearningRequest} (h : (ofOutcomes outcomes).request = .ok r) :
    r.snippets = (filesOf outcomes).flatMap fun p => (pairsOf outcomes p).map (Prod.mk p) := by
  unfold request at h
  split at h
  · nomatch h
  · obtain rfl := Except.ok.inj h
    dsimp only
    rw [byFile_ofOutcomes, List.flatMap_map]

/-- Pairs and sources in two lists that grow together, a file at a time. -/
def columns (byFile : List (Path × List SnippetPair)) : List SnippetPair × List Path :=
  byFile.foldl
    (fun (pairs, sources) (path, more) =>
      (pairs ++ more, sources ++ List.replicate more.length path))
    ([], [])

theorem columns_eq (byFile : List (Path × List SnippetPair)) :
    columns byFile =
      ((byFile.flatMap fun (path, pairs) => pairs.map (Prod.mk path)).map Prod.snd,
        (byFile.flatMap fun (path, pairs) => pairs.map (Prod.mk path)).map Prod.fst) := by
  induction byFile using List.reverseRecOn with
  | nil => rfl
  | append_singleton byFile file ih =>
    obtain ⟨path, pairs⟩ := file
    have hsnd : Prod.snd ∘ (Prod.mk path : SnippetPair → _) = id := rfl
    have hfst : Prod.fst ∘ (Prod.mk path : SnippetPair → _) = Function.const _ path := rfl
    have hstep : columns (byFile ++ [(path, pairs)]) =
        ((columns byFile).1 ++ pairs, (columns byFile).2 ++ List.replicate pairs.length path) := by
      unfold columns
      rw [List.foldl_append]
      rfl
    rw [hstep, ih, List.flatMap_append, List.map_append, List.map_append, List.flatMap_singleton,
      List.map_map, List.map_map, hsnd, hfst, List.map_id, List.map_const]

theorem block_of_request {r : LearningRequest} (h : (ofOutcomes outcomes).request = .ok r)
    (path : Path) : r.block path = (pairsOf outcomes path).map (Prod.mk path) := by
  have hfilter : ∀ p, ((pairsOf outcomes p).map (Prod.mk p)).filter
      (fun snippet => snippet.1 = path) =
        if p = path then (pairsOf outcomes path).map (Prod.mk path) else [] := by
    intro p
    split
    · next hp => simp [hp]
    · next hp => simp [hp]
  unfold LearningRequest.block
  rw [snippets_of_request h, List.filter_flatMap]
  simp only [hfilter]
  -- Only the file itself passes the filter, and it is listed once or has no pair at all.
  by_cases hmem : path ∈ filesOf outcomes
  · exact flatMap_ite_of_mem (nodup_filesOf outcomes) hmem _
  · rw [pairsOf_eq_nil hmem]
    simp

/-! ## Grouping -/

structure Groups (outcomes : List Outcome) (c : Collection) : Prop where
  files : ListsInOrder (fun o path => o.pairs ≠ [] ∧ o.path = path) outcomes c.files
  pairs : c.pairs = c.files.flatMap (pairsOf outcomes)
  diagnostics : c.diagnostics = outcomes.flatMap Outcome.diagnostics
  isEmpty : c.isEmpty = true ↔ ∀ o ∈ outcomes, o.pairs = []
  refused : ∀ e, c.request = .error e ↔ c.isEmpty = true ∧ e.files = outcomes.length
  inStep : ∀ r, c.request = .ok r → (r.pairs, r.sources) = columns c.byFile
  request : ∀ r, c.request = .ok r → r.pairs = c.pairs ∧ r.sources.length = r.pairs.length ∧
    r.sources.zip r.pairs = c.files.flatMap fun path => (pairsOf outcomes path).map (Prod.mk path)

theorem groups_ofOutcomes (outcomes : List Outcome) : Groups outcomes (ofOutcomes outcomes) where
  files := by
    rw [files_ofOutcomes]
    exact listsInOrder_filesOf outcomes
  pairs := by
    rw [files_ofOutcomes, pairs, byFile_ofOutcomes, List.flatMap_map]
  diagnostics := diagnostics_ofOutcomes outcomes
  isEmpty := isEmpty_ofOutcomes_iff
  refused _ := request_eq_error_iff
  inStep r h := by
    rw [columns_eq, byFile_ofOutcomes, List.flatMap_map, ← snippets_of_request h]
    rfl
  request r h := by
    have hsnippets := snippets_of_request h
    refine ⟨?_, ?_, ?_⟩
    · have hsnd : ∀ path : Path, Prod.snd ∘ (Prod.mk path : SnippetPair → _) = id := fun _ => rfl
      rw [LearningRequest.pairs, hsnippets, pairs, byFile_ofOutcomes, List.flatMap_map,
        List.map_flatMap]
      simp only [List.map_map, hsnd, List.map_id]
    · rw [LearningRequest.sources, LearningRequest.pairs, List.length_map, List.length_map]
    · rw [LearningRequest.sources, LearningRequest.pairs, files_ofOutcomes, ← hsnippets]
      exact (List.zip_of_prod rfl rfl).symm

/-! ## Outcomes in another order -/

/-- The same outcomes, with those of each path in the same order. -/
def Reorders (outcomes outcomes' : List Outcome) : Prop :=
  ∀ path, (outcomes.filter fun o => o.path = path) = outcomes'.filter fun o => o.path = path

theorem Reorders.perm {outcomes' : List Outcome} (h : Reorders outcomes outcomes') :
    outcomes.Perm outcomes' := by
  rw [List.perm_iff_count]
  intro o
  have hcount : ∀ l : List Outcome, l.count o = (l.filter fun o' => o'.path = o.path).count o :=
    fun l => (List.count_filter (by simp)).symm
  rw [hcount outcomes, h o.path, ← hcount outcomes']

theorem reorders_swap {o o' : Outcome} (h : o.path ≠ o'.path) (before after : List Outcome) :
    Reorders (before ++ o :: o' :: after) (before ++ o' :: o :: after) := by
  intro path
  rw [List.filter_append, List.filter_append]
  by_cases ho : o.path = path
  · have ho' : ¬ o'.path = path := fun heq => h (ho.trans heq.symm)
    simp [ho, ho']
  · simp [List.filter_cons, ho]

/-- Both collections hold the same blocks of pairs, in an order of files of their own. -/
structure PermutesBlocks (c c' : Collection) : Prop where
  files : c.files.Perm c'.files
  refused : ∀ e, c.request = .error e ↔ c'.request = .error e
  blocks : ∀ r r', c.request = .ok r → c'.request = .ok r' →
    r.snippets = c.files.flatMap r.block ∧ r'.snippets = c'.files.flatMap r.block

theorem snippets_eq_blocks {r : LearningRequest} (h : (ofOutcomes outcomes).request = .ok r) :
    r.snippets = (filesOf outcomes).flatMap r.block := by
  have hblock : r.block = fun path => (pairsOf outcomes path).map (Prod.mk path) :=
    funext (block_of_request h)
  rw [snippets_of_request h, hblock]

theorem permutesBlocks_of_reorders {outcomes' : List Outcome} (h : Reorders outcomes outcomes') :
    PermutesBlocks (ofOutcomes outcomes) (ofOutcomes outcomes') where
  files := by
    rw [files_ofOutcomes, files_ofOutcomes,
      List.perm_ext_iff_of_nodup (nodup_filesOf outcomes) (nodup_filesOf outcomes')]
    intro path
    rw [mem_filesOf, mem_filesOf]
    simp only [h.perm.mem_iff]
  refused e := by
    rw [request_eq_error_iff, request_eq_error_iff, isEmpty_ofOutcomes_iff,
      isEmpty_ofOutcomes_iff, h.perm.length_eq]
    simp only [h.perm.mem_iff]
  blocks r r' hr hr' := by
    have hblock : r'.block = r.block := by
      funext path
      rw [block_of_request hr, block_of_request hr', pairsOf, pairsOf, h path]
    rw [files_ofOutcomes, files_ofOutcomes, ← hblock, ← snippets_eq_blocks hr', hblock,
      ← snippets_eq_blocks hr]
    exact ⟨rfl, rfl⟩

/-- A collection groups the pairs of its outcomes by file.  Outcomes in another order, as long as
those of one file keep theirs, only move whole files. -/
theorem ofOutcomes_groups (outcomes : List Outcome) :
    Groups outcomes (ofOutcomes outcomes) ∧
      ∀ outcomes', Reorders outcomes outcomes' →
        PermutesBlocks (ofOutcomes outcomes) (ofOutcomes outcomes') :=
  ⟨groups_ofOutcomes outcomes, fun _ h => permutesBlocks_of_reorders h⟩

/-! Two files that take turns, the second of them once without a pair. -/

namespace TakingTurns

def adds (path : String) (letter : Char) : Outcome := ⟨path.toList, [⟨[], [letter]⟩], []⟩

def nothing : Outcome := .missing "b".toList "gone".toList

def listed : List Outcome := [nothing, adds "a" 'x', adds "b" 'y', adds "a" 'z']

def swapped : List Outcome := [nothing, adds "b" 'y', adds "a" 'x', adds "a" 'z']

end TakingTurns

theorem ofOutcomes_groups_takingTurns :
    (ofOutcomes TakingTurns.listed).files = ["a".toList, "b".toList] ∧
      (ofOutcomes TakingTurns.swapped).files = ["b".toList, "a".toList] ∧
      Reorders TakingTurns.listed TakingTurns.swapped ∧
      PermutesBlocks (ofOutcomes TakingTurns.listed) (ofOutcomes TakingTurns.swapped) := by
  have hswap : Reorders TakingTurns.listed TakingTurns.swapped :=
    reorders_swap (by decide) [TakingTurns.nothing] [TakingTurns.adds "a" 'z']
  exact ⟨by decide, by decide, hswap, (ofOutcomes_groups TakingTurns.listed).2 _ hswap⟩

end Collection
end ChangePairs
