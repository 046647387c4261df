import ChangePairs.Statement.ParserCache
import ChangePairs.Proofs.Distinct

/-!
The parsers that a sequence of calls gets.  What is missing, and whether the engine accepts a
grammar, may change from call to call.  A call is said to make a language (`Makes`) if it is for
that language and nothing stands in the way of a parser, whether or not one is kept by then.

All that a cache ever knows is which languages have been made and in what order, so it is described
by that list (`Holds`).  One call keeps the description (`Holds.named?`), and it follows by induction
what any call of a run gets (`getElem?_run`).  The main statement is `run_isDisciplined`.
-/

namespace ChangePairs

theorem Language.ofName?_eq_some_iff {t : Text} {l : Language} :
    ofName? t = some l ↔ l.name = t := by
  constructor
  · intro h
    simpa using List.find?_some h
  · rintro rfl
    cases l <;> decide

namespace ParserCache

abbrev Call := Installation × Text

/-- The call is for the language, neither its package nor the engine is missing, and the engine
accepts the grammar. -/
structure Makes (call : Call) (l : Language) : Prop where
  named : call.2 = l.name
  package : l.package ∉ call.1.missing
  engine : Installation.engine ∉ call.1.missing
  accepted : call.1.accepts = true

theorem canMake_iff {i : Installation} {l : Language} : i.canMake l = true ↔
    l.package ∉ i.missing ∧ Installation.engine ∉ i.missing ∧ i.accepts = true := by
  unfold Installation.canMake
  simp only [Bool.and_eq_true, Bool.not_eq_true', List.contains_eq_mem, decide_eq_false_iff_not,
    and_assoc]

theorem makes_iff {call : Call} {l : Language} :
    Makes call l ↔ Language.ofName? call.2 = some l ∧ call.1.canMake l = true := by
  rw [Language.ofName?_eq_some_iff, canMake_iff, eq_comm]
  constructor
  · rintro ⟨hnamed, hpackage, hengine, haccepted⟩
    exact ⟨hnamed, hpackage, hengine, haccepted⟩
  · rintro ⟨hnamed, hpackage, hengine, haccepted⟩
    exact ⟨hnamed, hpackage, hengine, haccepted⟩

theorem Makes.ofName?_eq {call : Call} {l : Language} (h : Makes call l) :
    Language.ofName? call.2 = some l := (makes_iff.1 h).1

def made? (call : Call) : Option Language := (Language.ofName? call.2).filter call.1.canMake

/-- The languages that calls make, in the order of the first call that makes each. -/
def made (calls : List Call) : List Language := distinct (calls.filterMap made?)

/-- The parser for one of the languages made so far, numbered by its place among them. -/
def numbered (langs : List Language) (l : Language) : Option Parser :=
  if l ∈ langs then some ⟨l, langs.idxOf l + 1⟩ else none

/-- What a call gets when some languages have been made. -/
def answer (langs : List Language) (call : Call) : Option Parser :=
  (Language.ofName? call.2).bind (numbered langs)

theorem made?_eq_some_iff {call : Call} {l : Language} : made? call = some l ↔ Makes call l :=
  Option.filter_eq_some_iff.trans makes_iff.symm

theorem mem_made {calls : List Call} {l : Language} :
    l ∈ made calls ↔ ∃ call ∈ calls, Makes call l := by
  unfold made
  rw [mem_distinct, List.mem_filterMap]
  simp only [made?_eq_some_iff]

theorem listsInOrder_made (calls : List Call) : ListsInOrder Makes calls (made calls) :=
  (listsInOrder_distinct_filterMap made? calls).congr fun _ _ _ => made?_eq_some_iff

/-- A call that makes no language, or one that has been made, adds nothing. -/
theorem made_concat_of_forall {calls : List Call} {call : Call}
    (h : ∀ l, Makes call l → l ∈ made calls) : made (calls ++ [call]) = made calls := by
  unfold made at *
  rw [List.filterMap_append]
  cases hmade : made? call with
  | none => rw [List.filterMap_cons_none hmade, List.filterMap_nil, List.append_nil]
  | some l =>
    rw [List.filterMap_cons_some hmade, List.filterMap_nil, distinct_concat,
      if_pos (mem_distinct.1 (h l (made?_eq_some_iff.1 hmade)))]

theorem made_concat_of_makes {calls : List Call} {call : Call} {l : Language} (h : Makes call l)
    (hl : l ∉ made calls) : made (calls ++ [call]) = made calls ++ [l] := by
  unfold made at *
  rw [List.filterMap_append, List.filterMap_cons_some (made?_eq_some_iff.2 h), List.filterMap_nil,
    distinct_concat, if_neg (mt mem_distinct.2 hl)]

theorem made_take_isPrefix (calls : List Call) (n : Nat) : made (calls.take n) <+: made calls := by
  have hprefix := distinct_append ((calls.take n).filterMap made?) ((calls.drop n).filterMap made?)
  rw [← List.filterMap_append, List.take_append_drop] at hprefix
  exact hprefix

theorem numbered_of_isPrefix {langs langs' : List Language} (h : langs <+: langs') {l : Language}
    (hl : l ∈ langs) : numbered langs l = some ⟨l, langs'.idxOf l + 1⟩ := by
  obtain ⟨more, rfl⟩ := h
  rw [numbered, if_pos hl, List.idxOf_append_of_mem hl]

/-! ## One call -/

/-- The cache knows of the languages that have been made, and of nothing else. -/
structure Holds (cache : ParserCache) (langs : List Language) : Prop where
  find : ∀ l, cache.find? l = numbered langs l
  created : cache.created = langs.length

theorem holds_empty : Holds empty [] := ⟨fun _ => rfl, rfl⟩

theorem Holds.cons {cache : ParserCache} {langs : List Language} (h : Holds cache langs)
    {l : Language} (hl : l ∉ langs) :
    Holds ⟨⟨l, cache.created + 1⟩ :: cache.parsers, cache.created + 1⟩ (langs ++ [l]) := by
  refine ⟨fun l' => ?_, by simp [h.created]⟩
  have hrest := h.find l'
  unfold find? numbered at *
  by_cases heq : l = l'
  · subst heq
    rw [List.find?_cons_of_pos (by simp), if_pos (by simp), List.idxOf_append_of_notMem hl, h.created]
    simp
  · rw [List.find?_cons_of_neg (by simpa using heq), hrest]
    by_cases hmem : l' ∈ langs
    · rw [if_pos hmem, if_pos (List.mem_append_left _ hmem), List.idxOf_append_of_mem hmem]
    · rw [if_neg hmem, if_neg (by simp [hmem, Ne.symm heq])]

/-- A call gets what the languages made up to and with it say. -/
theorem Holds.named? {cache : ParserCache} {before : List Call} (h : Holds cache (made before))
    (call : Call) : ∃ cache',
      cache.named? call.1 call.2 = (answer (made (before ++ [call])) call, cache') ∧
        Holds cache' (made (before ++ [call])) := by
  unfold ParserCache.named? answer
  cases hname : Language.ofName? call.2 with
  | none =>
    rw [made_concat_of_forall fun l hl => nomatch hname.symm.trans hl.ofName?_eq]
    exact ⟨cache, rfl, h⟩
  | some l =>
    have hself : ∀ l', Makes call l' → l' = l := fun l' hl' =>
      Option.some.inj (hl'.ofName?_eq.symm.trans hname)
    dsimp only
    rw [Option.bind_some]
    unfold parser?
    by_cases hmem : l ∈ made before
    · -- A parser is kept, and whether another one could be made is not asked.
      rw [made_concat_of_forall fun l' hl' => hself l' hl' ▸ hmem, h.find]
      refine ⟨cache, ?_, h⟩
      unfold numbered
      rw [if_pos hmem]
    · have hnone : cache.find? l = none := (h.find l).trans (if_neg hmem)
      rw [hnone]
      dsimp only
      by_cases hmake : call.1.canMake l = true
      · have hnew := h.cons hmem
        rw [if_pos hmake, made_concat_of_makes (makes_iff.2 ⟨hname, hmake⟩) hmem, ← hnew.find]
        exact ⟨_, congrArg (·, _) (List.find?_cons_of_pos (by simp)).symm, hnew⟩
      · rw [if_neg hmake, made_concat_of_forall fun l' hl' =>
          absurd (hself l' hl' ▸ (makes_iff.1 hl').2) hmake, ← h.find, hnone]
        exact ⟨cache, rfl, h⟩

/-! ## One call after the other -/

theorem length_run (cache : ParserCache) (calls : List Call) :
    (cache.run calls).length = calls.length := by
  induction calls generalizing cache with
  | nil => rfl
  | cons call calls ih => rw [run, List.length_cons, ih, List.length_cons]

theorem getElem?_run_of_holds {cache : ParserCache} {before : List Call}
    (h : Holds cache (made before)) (calls : List Call) (n : Nat) :
    (cache.run calls)[n]? =
      calls[n]?.map fun call => answer (made (before ++ calls.take (n + 1))) call := by
  induction calls generalizing cache before n with
  | nil => rfl
  | cons call calls ih =>
    obtain ⟨cache', hcall, hcache'⟩ := h.named? call
    have hrun : cache.run (call :: calls) =
        answer (made (before ++ [call])) call :: cache'.run calls := by
      rw [run, hcall]
    rw [hrun]
    cases n with
    | zero => rfl
    | succ n =>
      rw [List.getElem?_cons_succ, ih hcache' n, List.getElem?_cons_succ, List.take_succ_cons,
        List.append_assoc, List.singleton_append]

/-- What a call gets depends on the calls up to it. -/
theorem getElem?_run (calls : List Call) (n : Nat) :
    (empty.run calls)[n]? = calls[n]?.map fun call => answer (made (calls.take (n + 1))) call :=
  getElem?_run_of_holds (show Holds empty (made []) from holds_empty) calls n

theorem mem_made_take {calls : List Call} {n : Nat} {l : Language} :
    l ∈ made (calls.take (n + 1)) ↔
      ∃ k call, k ≤ n ∧ calls[k]? = some call ∧ Makes call l := by
  rw [mem_made]
  constructor
  · rintro ⟨call, hcall, hmakes⟩
    obtain ⟨k, hk⟩ := List.mem_iff_getElem?.1 hcall
    rw [List.getElem?_take] at hk
    split at hk
    · next hlt => exact ⟨k, call, Nat.le_of_lt_succ hlt, hk, hmakes⟩
    · nomatch hk
  · rintro ⟨k, call, hle, hk, hmakes⟩
    refine ⟨call, List.mem_iff_getElem?.2 ⟨k, ?_⟩, hmakes⟩
    rw [List.getElem?_take, if_pos (Nat.lt_succ_of_le hle), hk]

/-- A call gets a parser if its language has been made by then, and the number of the parser is
settled by all calls together. -/
theorem getElem?_run_eq_some_iff {calls : List Call} {n : Nat} {call : Call} {p : Parser}
    (hcall : calls[n]? = some call) :
    (empty.run calls)[n]? = some (some p) ↔
      Language.ofName? call.2 = some p.language ∧ p.language ∈ made (calls.take (n + 1)) ∧
        p.number = (made calls).idxOf p.language + 1 := by
  rw [getElem?_run, hcall, Option.map_some, Option.some.injEq]
  unfold answer
  rw [Option.bind_eq_some_iff]
  constructor
  · rintro ⟨l, hname, hp⟩
    by_cases hl : l ∈ made (calls.take (n + 1))
    · rw [numbered_of_isPrefix (made_take_isPrefix calls (n + 1)) hl] at hp
      obtain rfl := Option.some.inj hp
      exact ⟨hname, hl, rfl⟩
    · rw [numbered, if_neg hl] at hp
      nomatch hp
  · rintro ⟨hname, hl, hnumber⟩
    refine ⟨p.language, hname, ?_⟩
    rw [numbered_of_isPrefix (made_take_isPrefix calls (n + 1)) hl, ← hnumber]

/-- A call gets nothing if its language has not been made by then. -/
theorem getElem?_run_eq_none_iff {calls : List Call} {n : Nat} {call : Call}
    (hcall : calls[n]? = some call) :
    (empty.run calls)[n]? = some none ↔
      ∀ l, Language.ofName? call.2 = some l → l ∉ made (calls.take (n + 1)) := by
  rw [getElem?_run, hcall, Option.map_some, Option.some.injEq]
  unfold answer
  rw [Option.bind_eq_none_iff]
  refine forall_congr' fun l => imp_congr_right fun _ => ?_
  unfold numbered
  split
  · next hl => simp [hl]
  · next hl => simp [hl]

/-- The parsers of a run are those of the languages made, numbered from one on. -/
theorem mem_run_iff {calls : List Call} {p : Parser} :
    some p ∈ empty.run calls ↔
      ∃ i, (made calls)[i]? = some p.language ∧ p.number = i + 1 := by
  constructor
  · intro h
    obtain ⟨n, hn⟩ := List.mem_iff_getElem?.1 h
    obtain ⟨call, hcall, -⟩ := Option.map_eq_some_iff.1 ((getElem?_run calls n).symm.trans hn)
    obtain ⟨-, hmade, hnumber⟩ := (getElem?_run_eq_some_iff hcall).1 hn
    exact ⟨_, List.getElem?_idxOf ((made_take_isPrefix calls (n + 1)).subset hmade), hnumber⟩
  · rintro ⟨i, hi, hnumber⟩
    obtain ⟨call, hcall, hmakes⟩ := mem_made.1 (List.mem_of_getElem? hi)
    obtain ⟨n, hn⟩ := List.mem_iff_getElem?.1 hcall
    have hplace : (made calls).idxOf p.language = i := by
      obtain ⟨hlt, hi⟩ := List.getElem?_eq_some_iff.1 hi
      rw [← hi]
      exact (listsInOrder_made calls).nodup.idxOf_getElem i hlt
    refine List.mem_iff_getElem?.2 ⟨n, (getElem?_run_eq_some_iff hn).2 ⟨hmakes.ofName?_eq, ?_, ?_⟩⟩
    · exact mem_made_take.2 ⟨n, call, Nat.le_refl n, hn, hmakes⟩
    · rw [hplace, hnumber]

theorem eq_of_mem_run {calls : List Call} {p q : Parser} (hp : some p ∈ empty.run calls)
    (hq : some q ∈ empty.run calls) (h : p.language = q.language ∨ p.number = q.number) :
    p = q := by
  obtain ⟨i, hi, hnumber⟩ := mem_run_iff.1 hp
  obtain ⟨j, hj, hnumber'⟩ := mem_run_iff.1 hq
  have hij : i = j := by
    rcases h with hlanguage | hsame
    · have hlt := (List.getElem?_eq_some_iff.1 hi).1
      refine (List.getElem?_inj hlt (listsInOrder_made calls).nodup).1 ?_
      rw [hi, hj, hlanguage]
    · omega
  subst hij
  obtain ⟨l, number⟩ := p
  obtain ⟨l', number'⟩ := q
  rw [Parser.mk.injEq]
  exact ⟨Option.some.inj (hi.symm.trans hj), hnumber.trans hnumber'.symm⟩

/-- A call that makes nothing might as well not have come. -/
theorem made_erase {call : Call} (h : made? call = none) (before after : List Call) :
    made (before ++ call :: after) = made (before ++ after) := by
  unfold made
  rw [List.filterMap_append, List.filterMap_cons_none h, List.filterMap_append]

theorem made?_of_getElem?_run {before after : List Call} {call : Call}
    (h : (empty.run (before ++ call :: after))[before.length]? = some none) :
    made? call = none := by
  have hcall : (before ++ call :: after)[before.length]? = some call := by simp
  rw [getElem?_run_eq_none_iff hcall] at h
  cases hmade : made? call with
  | none => rfl
  | some l =>
    have hmakes := made?_eq_some_iff.1 hmade
    exact absurd (mem_made_take.2 ⟨_, call, Nat.le_refl _, hcall, hmakes⟩) (h l hmakes.ofName?_eq)

theorem run_erase {before after : List Call} {call : Call}
    (h : (empty.run (before ++ call :: after))[before.length]? = some none) :
    empty.run (before ++ after) = (empty.run (before ++ call :: after)).eraseIdx before.length := by
  have hmade := made?_of_getElem?_run h
  refine List.ext_getElem? fun n => ?_
  rw [List.getElem?_eraseIdx]
  split
  · next hlt =>
    rw [getElem?_run, getElem?_run, List.getElem?_append_left hlt, List.getElem?_append_left hlt,
      List.take_append_of_le_length hlt, List.take_append_of_le_length hlt]
  · next hge =>
    obtain ⟨k, rfl⟩ := Nat.exists_eq_add_of_le (Nat.le_of_not_lt hge)
    have hshort : (before ++ after).take (before.length + k + 1) = before ++ after.take (k + 1) := by
      rw [Nat.add_assoc, List.take_length_add_append]
    have hlong : (before ++ call :: after).take (before.length + k + 1 + 1) =
        before ++ call :: after.take (k + 1) := by
      rw [Nat.add_assoc, Nat.add_assoc, List.take_length_add_append]
      rfl
    rw [getElem?_run, getElem?_run, hshort, hlong, made_erase hmade]
    simp [List.getElem?_append_right, Nat.add_assoc]

/-! ## A run -/

structure IsDisciplined (calls : List Call) (parsers : List (Option Parser)) : Prop where
  length : parsers.length = calls.length
  /-- A call gets nothing as long as no call for its name could make a parser. -/
  none_iff : ∀ (n : Nat) (call : Call), calls[n]? = some call → (parsers[n]? = some none ↔
    ∀ (k : Nat) (earlier : Call), k ≤ n → calls[k]? = some earlier → earlier.2 = call.2 →
      ∀ l, ¬ Makes earlier l)
  /-- The parser of another language is never got. -/
  language : ∀ (n : Nat) (call : Call) (p : Parser), calls[n]? = some call →
    parsers[n]? = some (some p) → call.2 = p.language.name
  /-- Later calls for the language get the same parser, whatever is missing by then. -/
  kept : ∀ (n k : Nat) (p : Parser) (call : Call), n ≤ k → parsers[n]? = some (some p) →
    calls[k]? = some call → call.2 = p.language.name → parsers[k]? = some (some p)
  /-- No two parsers are for one language. -/
  alone : ∀ p q : Parser, some p ∈ parsers → some q ∈ parsers →
    p.language = q.language ∨ p.number = q.number → p = q
  /-- Parsers are numbered in the order in which their languages are first made. -/
  numbered : ∃ langs, ListsInOrder Makes calls langs ∧
    ∀ p : Parser, some p ∈ parsers ↔ ∃ i, langs[i]? = some p.language ∧ p.number = i + 1

/-- A cache keeps every parser that it has made, makes one for each language, and remembers no
failure: without a call that gets nothing, the other calls get the same. -/
theorem run_isDisciplined (calls : List Call) :
    IsDisciplined calls (empty.run calls) ∧
      ∀ before call after, calls = before ++ call :: after →
        (empty.run calls)[before.length]? = some none →
          empty.run (before ++ after) = (empty.run calls).eraseIdx before.length := by
  constructor
  · refine ⟨length_run empty calls, ?_, ?_, ?_, fun p q => eq_of_mem_run,
      ⟨made calls, listsInOrder_made calls, fun p => mem_run_iff⟩⟩
    · intro n call hcall
      rw [getElem?_run_eq_none_iff hcall]
      constructor
      · intro h k earlier hk hearlier hname l hmakes
        exact h l (hname ▸ hmakes.ofName?_eq) (mem_made_take.2 ⟨k, earlier, hk, hearlier, hmakes⟩)
      · intro h l hl hmade
        obtain ⟨k, earlier, hk, hearlier, hmakes⟩ := mem_made_take.1 hmade
        have hname : earlier.2 = call.2 := by
          rw [hmakes.named, Language.ofName?_eq_some_iff.1 hl]
        exact h k earlier hk hearlier hname l hmakes
    · intro n call p hcall hp
      exact (Language.ofName?_eq_some_iff.1 ((getElem?_run_eq_some_iff hcall).1 hp).1).symm
    · intro n k p call hk hp hcall hname
      obtain ⟨first, hfirst, -⟩ := Option.map_eq_some_iff.1 ((getElem?_run calls n).symm.trans hp)
      obtain ⟨-, hmade, hnumber⟩ := (getElem?_run_eq_some_iff hfirst).1 hp
      refine (getElem?_run_eq_some_iff hcall).2
        ⟨Language.ofName?_eq_some_iff.2 hname.symm, ?_, hnumber⟩
      obtain ⟨i, earlier, hi, hearlier⟩ := mem_made_take.1 hmade
      exact mem_made_take.2 ⟨i, earlier, Nat.le_trans hi hk, hearlier⟩
  · rintro before call after rfl
    exact run_erase

/-! ## A package that comes and goes -/

namespace Outliving

def whole : Installation := ⟨[], true⟩

def bare : Installation := ⟨[Installation.engine, Language.package .tsx], false⟩

def calls : List Call :=
  [(bare, "tsx".toList), (whole, "typescript".toList), (whole, "tsx".toList),
    (bare, "typescript".toList), (whole, "cobol".toList)]

def parsers : List (Option Parser) :=
  [none, some ⟨.typescript, 1⟩, some ⟨.tsx, 2⟩, some ⟨.typescript, 1⟩, none]

end Outliving

/-- Two languages of one package get a parser each, a parser outlives the package, and the call that
failed has left nothing behind. -/
theorem run_isDisciplined_outliving :
    empty.run Outliving.calls = Outliving.parsers ∧
      IsDisciplined Outliving.calls Outliving.parsers ∧
      empty.run Outliving.calls.tail = Outliving.parsers.tail := by
  have hrun : empty.run Outliving.calls = Outliving.parsers := by decide
  obtain ⟨hdisciplined, herase⟩ := run_isDisciplined Outliving.calls
  rw [hrun] at hdisciplined herase
  exact ⟨hrun, hdisciplined, herase [] _ _ rfl rfl⟩

end ParserCache
end ChangePairs
