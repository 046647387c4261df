/-!
Computations that end without a result.  A computation in steps has a result if its first step has
one with which the others do (`bind_eq_ok_iff`), and fails if its first step does, or if the others
fail with the result of it.  A list of computations fails with the first of them that does
(`mapM_eq_error_iff`).
-/

namespace ChangePairs

def Fails {ε α : Type} (x : Except ε α) : Prop := ∃ e, x = .error e

section

variable {ε φ α β : Type}

theorem not_fails_ok (a : α) : ¬ Fails (.ok a : Except ε α) := by
  rintro ⟨e, h⟩
  nomatch h

theorem fails_error (e : ε) : Fails (.error e : Except ε α) := ⟨e, rfl⟩

theorem not_fails_iff {x : Except ε α} : ¬ Fails x ↔ ∃ a, x = .ok a := by
  cases x with
  | ok a => exact ⟨fun _ => ⟨a, rfl⟩, fun _ => not_fails_ok a⟩
  | error e =>
    constructor
    · intro h
      exact absurd (fails_error e) h
    · rintro ⟨a, h⟩
      nomatch h

theorem bind_eq_ok_iff {x : Except ε α} {f : α → Except ε β} {b : β} :
    x >>= f = .ok b ↔ ∃ a, x = .ok a ∧ f a = .ok b := by
  cases x with
  | ok a =>
    constructor
    · intro h
      exact ⟨a, rfl, h⟩
    · rintro ⟨_, ⟨⟩, h⟩
      exact h
  | error e => exact iff_of_false nofun nofun

theorem map_eq_ok_iff {x : Except ε α} {f : α → β} {b : β} :
    x.map f = .ok b ↔ ∃ a, x = .ok a ∧ f a = b := by
  cases x with
  | ok a =>
    constructor
    · intro h
      exact ⟨a, rfl, Except.ok.inj h⟩
    · rintro ⟨_, ⟨⟩, rfl⟩
      rfl
  | error e => exact iff_of_false nofun nofun

theorem mapError_eq_ok_iff {x : Except ε α} {f : ε → φ} {a : α} :
    x.mapError f = .ok a ↔ x = .ok a := by
  cases x with
  | ok b =>
    show (Except.ok b : Except φ α) = .ok a ↔ _
    rw [Except.ok.injEq, Except.ok.injEq]
  | error e => exact iff_of_false nofun nofun

theorem fails_map_iff {x : Except ε α} {f : α → β} : Fails (x.map f) ↔ Fails x := by
  cases x with
  | ok a => exact iff_of_false (not_fails_ok _) (not_fails_ok _)
  | error e => exact iff_of_true (fails_error e) (fails_error e)

theorem map_eq_error_iff {x : Except ε α} {f : α → β} {e : ε} :
    x.map f = .error e ↔ x = .error e := by
  cases x with
  | ok a => exact iff_of_false nofun nofun
  | error e' =>
    show (Except.error e' : Except ε β) = .error e ↔ _
    rw [Except.error.injEq, Except.error.injEq]

theorem fails_bind_iff {x : Except ε α} {f : α → Except ε β} :
    Fails (x >>= f) ↔ Fails x ∨ ∃ a, x = .ok a ∧ Fails (f a) := by
  cases x with
  | ok a =>
    constructor
    · intro h
      exact .inr ⟨a, rfl, h⟩
    · rintro (h | ⟨b, hb, h⟩)
      · exact absurd h (not_fails_ok a)
      · cases hb
        exact h
  | error e => exact iff_of_true (fails_error e) (.inl (fails_error e))

/-- Two computations whose results are put together fail with either of them. -/
theorem fails_bind_bind_iff {γ : Type} {x : Except ε α} {y : Except ε β}
    {f : α → β → Except ε γ} (hf : ∀ a b, ¬ Fails (f a b)) :
    Fails (x >>= fun a => y >>= fun b => f a b) ↔ Fails x ∨ Fails y := by
  cases x with
  | error e => exact iff_of_true (fails_error e) (.inl (fails_error e))
  | ok a =>
    have hy : Fails (y >>= fun b => f a b) ↔ Fails y := by
      rw [fails_bind_iff, or_iff_left]
      rintro ⟨b, -, h⟩
      exact hf a b h
    rw [or_iff_right (not_fails_ok a)]
    exact hy

theorem mapM_id_eq_ok_iff {results : List (Except ε α)} {as : List α} :
    results.mapM id = .ok as ↔ results = as.map .ok := by
  induction results generalizing as with
  | nil =>
    cases as with
    | nil => exact iff_of_true rfl rfl
    | cons a as => exact iff_of_false nofun nofun
  | cons r results ih =>
    rw [List.mapM_cons]
    constructor
    · intro h
      obtain ⟨a, hr, h⟩ := bind_eq_ok_iff.1 h
      obtain ⟨rest, hrest, h⟩ := bind_eq_ok_iff.1 h
      obtain rfl := Except.ok.inj h
      rw [ih.1 hrest, List.map_cons]
      exact congrArg (· :: _) hr
    · cases as with
      | nil => nofun
      | cons a as =>
        intro h
        obtain ⟨rfl, hrest⟩ := List.cons.inj h
        rw [ih.2 hrest]
        rfl

/-- A list of computations fails with any one of them. -/
theorem fails_mapM_iff {f : α → Except ε β} {l : List α} :
    Fails (l.mapM f) ↔ ∃ a ∈ l, Fails (f a) := by
  induction l with
  | nil => exact iff_of_false (not_fails_ok _) (by simp)
  | cons a l ih =>
    rw [List.mapM_cons, fails_bind_bind_iff, ih]
    · simp only [List.mem_cons, exists_eq_or_imp]
    · exact fun _ _ => not_fails_ok _

/-- A list of computations has results if each of them does. -/
theorem mapM_eq_ok_iff {f : α → Except ε β} {g : α → β} {l : List α} :
    l.mapM f = .ok (l.map g) ↔ ∀ a ∈ l, f a = .ok (g a) := by
  induction l with
  | nil => exact iff_of_true rfl nofun
  | cons a l ih =>
    rw [List.mapM_cons, List.forall_mem_cons, ← ih]
    cases ha : f a with
    | error e => exact iff_of_false nofun fun h => nomatch h.1
    | ok b =>
      cases hl : l.mapM f with
      | error e => exact iff_of_false nofun fun h => nomatch h.2
      | ok bs =>
        show (Except.ok (b :: bs) : Except ε (List β)) = .ok (g a :: l.map g) ↔ _
        rw [Except.ok.injEq, Except.ok.injEq, Except.ok.injEq, List.cons.injEq]

/-- The computation of some member of the list fails for the given reason, and those of the members
before it have results. -/
def FailsFirst (f : α → Except ε β) (l : List α) (e : ε) : Prop :=
  ∃ before a after, l = before ++ a :: after ∧ (∀ b ∈ before, ¬ Fails (f b)) ∧ f a = .error e

theorem failsFirst_cons_iff {f : α → Except ε β} {a : α} {l : List α} {e : ε} :
    FailsFirst f (a :: l) e ↔ f a = .error e ∨ ¬ Fails (f a) ∧ FailsFirst f l e := by
  constructor
  · rintro ⟨before, b, after, hl, hbefore, hb⟩
    cases before with
    | nil =>
      obtain ⟨rfl, -⟩ := List.cons.inj hl
      exact .inl hb
    | cons c before =>
      obtain ⟨rfl, htail⟩ := List.cons.inj hl
      rw [List.forall_mem_cons] at hbefore
      exact .inr ⟨hbefore.1, before, b, after, htail, hbefore.2, hb⟩
  · rintro (ha | ⟨ha, before, b, after, rfl, hbefore, hb⟩)
    · exact ⟨[], a, l, rfl, nofun, ha⟩
    · exact ⟨a :: before, b, after, rfl, List.forall_mem_cons.2 ⟨ha, hbefore⟩, hb⟩

theorem mapM_eq_error_iff {f : α → Except ε β} {l : List α} {e : ε} :
    l.mapM f = .error e ↔ FailsFirst f l e := by
  induction l with
  | nil =>
    refine iff_of_false nofun ?_
    rintro ⟨before, a, after, hl, -⟩
    simp at hl
  | cons a l ih =>
    rw [List.mapM_cons, failsFirst_cons_iff, ← ih]
    cases ha : f a with
    | error e' =>
      rw [or_iff_left fun h => h.1 (fails_error e'), Except.error.injEq]
      show (Except.error e' : Except ε (List β)) = .error e ↔ _
      rw [Except.error.injEq]
    | ok b =>
      rw [or_iff_right nofun, and_iff_right (not_fails_ok b)]
      cases l.mapM f with
      | error e' => exact Iff.rfl
      | ok bs => exact iff_of_false nofun nofun

/-- Computations that fail alike have the same first failure. -/
theorem FailsFirst.congr {γ : Type} {f : α → Except ε β} {g : α → Except ε γ} {l : List α} {e : ε}
    (h : FailsFirst f l e) (hfg : ∀ a e, f a = .error e ↔ g a = .error e) : FailsFirst g l e := by
  obtain ⟨before, a, after, hl, hbefore, ha⟩ := h
  refine ⟨before, a, after, hl, ?_, (hfg a e).1 ha⟩
  rintro b hb ⟨e', he'⟩
  exact hbefore b hb ⟨e', (hfg b e').2 he'⟩

/-- Steps that may also be turned down: the others are taken only if the first is not. -/
theorem fails_run_bind_iff {x : ExceptT φ (Except ε) α} {f : α → ExceptT φ (Except ε) β} :
    Fails (x >>= f).run ↔ Fails x.run ∨ ∃ a, x.run = .ok (.ok a) ∧ Fails (f a).run := by
  rw [ExceptT.run_bind, fails_bind_iff]
  refine or_congr_right ⟨?_, ?_⟩
  · rintro ⟨r, hr, h⟩
    cases r with
    | ok a => exact ⟨a, hr, h⟩
    | error e => exact absurd h (not_fails_ok _)
  · rintro ⟨a, ha, h⟩
    exact ⟨.ok a, ha, h⟩

theorem run_bind_eq_ok_iff {x : ExceptT φ (Except ε) α} {f : α → ExceptT φ (Except ε) β} {b : β} :
    (x >>= f).run = .ok (.ok b) ↔ ∃ a, x.run = .ok (.ok a) ∧ (f a).run = .ok (.ok b) := by
  rw [ExceptT.run_bind, bind_eq_ok_iff]
  constructor
  · rintro ⟨r, hr, h⟩
    cases r with
    | ok a => exact ⟨a, hr, h⟩
    | error e => nomatch h
  · rintro ⟨a, ha, h⟩
    exact ⟨.ok a, ha, h⟩

end

end ChangePairs
