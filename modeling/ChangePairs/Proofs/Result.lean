import Mathlib

/-!
What holds of every result of a computation.  A computation may work in any lawful monad and may
end without a result; `Ensures` says that a result, whenever there is one, has a property.  It is
`SatisfiesM` of Batteries for computations that may fail, so it needs no word on what the monad
does: for one that keeps a state it speaks of the results from every state
(`ensures_stateT_iff`).
-/

namespace ChangePairs

variable {m : Type → Type} [Monad m] [LawfulMonad m] {ε φ α β σ τ : Type}

def Ensures (p : α → Prop) (x : m (Except ε α)) : Prop :=
  SatisfiesM (fun r => ∀ a, r = .ok a → p a) x

theorem ensures_stateT_iff {p : α → Prop} {x : StateT σ m (Except ε α)} :
    Ensures p x ↔ ∀ s, SatisfiesM (fun r => ∀ a, r.1 = .ok a → p a) (x.run s) :=
  SatisfiesM_StateT_eq

/-- A result from some state has what is ensured. -/
theorem Ensures.of_run {p : α → Prop} {x : StateM σ (Except ε α)} (h : Ensures p x)
    {s s' : σ} {a : α} (hrun : x.run s = (.ok a, s')) : p a := by
  have hresults := ensures_stateT_iff.1 h s
  rw [SatisfiesM_Id_eq] at hresults
  exact hresults a (congrArg Prod.fst hrun)

theorem Ensures.imp {p q : α → Prop} {x : m (Except ε α)} (h : Ensures p x)
    (himp : ∀ a, p a → q a) : Ensures q x :=
  SatisfiesM.imp h fun hr a ha => himp a (hr a ha)

theorem ensures_ok {p : α → Prop} {a : α} (h : p a) :
    Ensures p (pure (.ok a) : m (Except ε α)) :=
  SatisfiesM.pure fun _ ha => Except.ok.inj ha ▸ h

theorem ensures_error (p : α → Prop) (e : ε) : Ensures p (pure (.error e) : m (Except ε α)) :=
  SatisfiesM.pure nofun

def resultFrom (x : StateT τ (StateM σ) α) (inner : τ) (outer : σ) : α :=
  ((x.run inner).run outer).1.1

theorem resultFrom_bind_of_run {x : StateT τ (StateM σ) α} {inner inner' : τ} {outer outer' : σ}
    {a : α} (h : (x.run inner).run outer = ((a, inner'), outer'))
    (f : α → StateT τ (StateM σ) β) :
    resultFrom (x >>= f) inner outer = resultFrom (f a) inner' outer' := by
  unfold resultFrom
  rw [StateT.run_bind, StateT.run_bind, h]
  rfl

theorem satisfiesM_stateT_stateM_iff {p : α → Prop} {x : StateT τ (StateM σ) α} :
    SatisfiesM p x ↔ ∀ inner outer, p (resultFrom x inner outer) := by
  rw [SatisfiesM_StateT_eq]
  refine forall_congr' fun inner => ?_
  rw [SatisfiesM_StateT_eq]
  refine forall_congr' fun outer => ?_
  rw [SatisfiesM_Id_eq]
  rfl

/-- Whatever comes first, it is enough that the rest ensures the property. -/
theorem ensures_bind {p : β → Prop} {x : m α} {f : α → m (Except ε β)}
    (h : ∀ a, Ensures p (f a)) : Ensures p (x >>= f) :=
  SatisfiesM.bind SatisfiesM.trivial fun a _ => h a

/-- A computation that is gone on with only once there is a result. -/
theorem Ensures.bind {p : α → Prop} {q : β → Prop} {x : m (Except ε α)}
    {f : Except ε α → m (Except φ β)} (hx : Ensures p x) (hok : ∀ a, p a → Ensures q (f (.ok a)))
    (herror : ∀ e, Ensures q (f (.error e))) : Ensures q (x >>= f) := by
  refine SatisfiesM.bind hx fun r hr => ?_
  cases r with
  | ok a => exact hok a (hr a rfl)
  | error e => exact herror e

theorem satisfiesM_monadLift {p : α → Prop} {x : m α} (h : SatisfiesM p x) :
    SatisfiesM p (monadLift x : StateT σ m α) := by
  rw [SatisfiesM_StateT_eq]
  intro s
  exact SatisfiesM.bind h fun a ha => SatisfiesM.pure ha

/-- The results for the members of a list, one by one. -/
theorem satisfiesM_mapM {p : α → β → Prop} {f : α → m β} (l : List α)
    (h : ∀ a ∈ l, SatisfiesM (p a) (f a)) : SatisfiesM (List.Forall₂ p l) (l.mapM f) := by
  induction l with
  | nil =>
    rw [List.mapM_nil]
    exact SatisfiesM.pure .nil
  | cons a l ih =>
    rw [List.mapM_cons]
    refine SatisfiesM.bind (h a List.mem_cons_self) fun b hb => ?_
    refine SatisfiesM.bind (ih fun c hc => h c (List.mem_cons_of_mem a hc)) fun bs hbs => ?_
    exact SatisfiesM.pure (.cons hb hbs)

end ChangePairs
