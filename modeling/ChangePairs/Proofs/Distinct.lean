import Mathlib.Data.List.Nodup
import ChangePairs.Distinct

/-!
Lists of values in the order in which they first come up.  `ListsInOrder p l bs` says that `bs`
holds the values that `p` relates to some member of `l`, ordered by the first such member; there
is one such list (`ListsInOrder.unique`), and `distinct` makes it (`listsInOrder_distinct`).
-/

namespace ChangePairs

variable {α β : Type}

/-- The first member of the list to which `b` is related stands at place `i`. -/
def IsFirstAt (p : α → β → Prop) (l : List α) (b : β) (i : Nat) : Prop :=
  (∃ a, l[i]? = some a ∧ p a b) ∧ ∀ k a, k < i → l[k]? = some a → ¬ p a b

/-- The values that are related to members of a list, in the order of the first such member. -/
structure ListsInOrder (p : α → β → Prop) (l : List α) (bs : List β) : Prop where
  mem : ∀ b, b ∈ bs ↔ ∃ a ∈ l, p a b
  ordered : bs.Pairwise fun b c => ∃ i j, i < j ∧ IsFirstAt p l b i ∧ IsFirstAt p l c j

theorem IsFirstAt.unique {p : α → β → Prop} {l : List α} {b : β} {i j : Nat}
    (hi : IsFirstAt p l b i) (hj : IsFirstAt p l b j) : i = j := by
  obtain ⟨⟨a, ha, hab⟩, hbefore⟩ := hi
  obtain ⟨⟨c, hc, hcb⟩, hbefore'⟩ := hj
  rcases Nat.lt_trichotomy i j with h | h | h
  · exact absurd hab (hbefore' i a h ha)
  · exact h
  · exact absurd hcb (hbefore j c h hc)

theorem IsFirstAt.congr {p q : α → β → Prop} {l : List α} {b : β} {i : Nat}
    (h : IsFirstAt p l b i) (hpq : ∀ a ∈ l, p a b ↔ q a b) : IsFirstAt q l b i := by
  obtain ⟨⟨a, ha, hab⟩, hbefore⟩ := h
  refine ⟨⟨a, ha, (hpq a (List.mem_of_getElem? ha)).1 hab⟩, ?_⟩
  intro k c hk hc hcb
  exact hbefore k c hk hc ((hpq c (List.mem_of_getElem? hc)).2 hcb)

namespace ListsInOrder

variable {p q : α → β → Prop} {l : List α} {bs cs : List β}

theorem congr (h : ListsInOrder p l bs) (hpq : ∀ a ∈ l, ∀ b, p a b ↔ q a b) :
    ListsInOrder q l bs := by
  constructor
  · intro b
    rw [h.mem]
    exact exists_congr fun a => and_congr_right fun ha => hpq a ha b
  · refine h.ordered.imp ?_
    rintro b c ⟨i, j, hij, hi, hj⟩
    exact ⟨i, j, hij, hi.congr fun a ha => hpq a ha b, hj.congr fun a ha => hpq a ha c⟩

theorem nodup (h : ListsInOrder p l bs) : bs.Nodup := by
  refine h.ordered.imp ?_
  rintro b c ⟨i, j, hij, hi, hj⟩ rfl
  exact absurd (hi.unique hj) (Nat.ne_of_lt hij)

theorem unique (hb : ListsInOrder p l bs) (hc : ListsInOrder p l cs) : bs = cs := by
  have hperm : bs.Perm cs :=
    (List.perm_ext_iff_of_nodup hb.nodup hc.nodup).2 fun b => (hb.mem b).trans (hc.mem b).symm
  refine hperm.eq_of_pairwise ?_ hb.ordered hc.ordered
  rintro b c - - ⟨i, j, hij, hi, hj⟩ ⟨j', i', hji, hj', hi'⟩
  have hi := hi.unique hi'
  have hj := hj.unique hj'
  omega

end ListsInOrder

/-! ## One more member at the front -/

theorem IsFirstAt.head {p : α → β → Prop} {a : α} {b : β} (h : p a b) (l : List α) :
    IsFirstAt p (a :: l) b 0 :=
  ⟨⟨a, rfl, h⟩, fun k _ hk => absurd hk (Nat.not_lt_zero k)⟩

theorem IsFirstAt.cons {p : α → β → Prop} {l : List α} {a : α} {b : β} {i : Nat}
    (h : IsFirstAt p l b i) (ha : ¬ p a b) : IsFirstAt p (a :: l) b (i + 1) := by
  obtain ⟨hat, hbefore⟩ := h
  refine ⟨hat, ?_⟩
  intro k c hk hc
  cases k with
  | zero =>
    obtain rfl : a = c := by simpa using hc
    exact ha
  | succ k => exact hbefore k c (by omega) hc

theorem exists_isFirstAt {p : α → β → Prop} {l : List α} {b : β} (h : ∃ a ∈ l, p a b) :
    ∃ i, IsFirstAt p l b i := by
  induction l with
  | nil => simp at h
  | cons a l ih =>
    by_cases ha : p a b
    · exact ⟨0, .head ha l⟩
    · obtain ⟨c, hc, hcb⟩ := h
      rcases List.mem_cons.1 hc with rfl | hc
      · exact absurd hcb ha
      · obtain ⟨i, hi⟩ := ih ⟨c, hc, hcb⟩
        exact ⟨i + 1, hi.cons ha⟩

/-! ## Distinct values -/

variable [DecidableEq β]

/-- One more value at the end is listed unless it is there already. -/
theorem distinct_concat (l : List β) (b : β) :
    distinct (l ++ [b]) = if b ∈ l then distinct l else distinct l ++ [b] := by
  induction l with
  | nil => rfl
  | cons c l ih =>
    rw [List.cons_append, distinct, distinct, ih]
    by_cases hb : b ∈ l
    · rw [if_pos hb, if_pos (List.mem_cons_of_mem c hb)]
    · rw [if_neg hb, List.filter_append, List.filter_singleton]
      by_cases hbc : b = c
      · simp [hbc]
      · simp [hb, hbc]

/-- What comes behind a list only adds to its distinct values. -/
theorem distinct_append (l m : List β) :
    distinct l <+: distinct (l ++ m) := by
  induction m generalizing l with
  | nil => simp
  | cons b m ih =>
    have hconcat : distinct l <+: distinct (l ++ [b]) := by
      rw [distinct_concat]
      split
      · exact List.prefix_rfl
      · exact List.prefix_append _ _
    rw [List.append_cons]
    exact hconcat.trans (ih (l ++ [b]))

/-- A value that is listed once is met once. -/
theorem flatMap_ite_of_mem {l : List β} {b : β} (hnodup : l.Nodup) (h : b ∈ l) (values : List α) :
    (l.flatMap fun c => if c = b then values else []) = values := by
  induction l with
  | nil => nomatch h
  | cons c l ih =>
    obtain ⟨hc, hnodup⟩ := List.nodup_cons.1 hnodup
    rw [List.flatMap_cons]
    by_cases hcb : c = b
    · have hrest : (l.flatMap fun d => if d = b then values else []) = [] := by
        rw [List.flatMap_eq_nil_iff]
        intro d hd
        have hne : d ≠ b := fun heq => hc (hcb.trans heq.symm ▸ hd)
        rw [if_neg hne]
      rw [if_pos hcb, hrest, List.append_nil]
    · rw [if_neg hcb, List.nil_append, ih hnodup ((List.mem_cons.1 h).resolve_left (Ne.symm hcb))]

theorem mem_distinct_filter (hit : α → Bool) (f : α → β) (l : List α) (b : β) :
    b ∈ distinct ((l.filter hit).map f) ↔ ∃ a ∈ l, hit a = true ∧ f a = b := by
  rw [mem_distinct]
  simp only [List.mem_map, List.mem_filter, and_assoc]

/-- The distinct values of a partial function on a list. -/
theorem listsInOrder_distinct_filterMap (f : α → Option β) (l : List α) :
    ListsInOrder (fun a b => f a = some b) l (distinct (l.filterMap f)) := by
  have hmem (l : List α) (b : β) : b ∈ distinct (l.filterMap f) ↔ ∃ a ∈ l, f a = some b := by
    rw [mem_distinct, List.mem_filterMap]
  refine ⟨hmem l, ?_⟩
  induction l with
  | nil => exact .nil
  | cons a l ih =>
    cases ha : f a with
    | none =>
      rw [List.filterMap_cons_none ha]
      have hne : ∀ b, ¬ f a = some b := fun b h => nomatch ha.symm.trans h
      refine ih.imp ?_
      rintro b c ⟨i, j, hij, hi, hj⟩
      exact ⟨i + 1, j + 1, by omega, hi.cons (hne b), hj.cons (hne c)⟩
    | some first =>
      rw [List.filterMap_cons_some ha, distinct, List.pairwise_cons]
      -- What follows the first value differs from it, so `a` comes before the first of each.
      have hne : ∀ b ∈ (distinct (l.filterMap f)).filter (· ≠ first), ¬ f a = some b := by
        intro b hb h
        exact of_decide_eq_true (List.mem_filter.1 hb).2 (Option.some.inj (h.symm.trans ha))
      have hfirst : IsFirstAt (fun a b => f a = some b) (a :: l) first 0 :=
        IsFirstAt.head (p := fun a b => f a = some b) ha l
      constructor
      · intro b hb
        obtain ⟨i, hi⟩ := exists_isFirstAt ((hmem l b).1 (List.mem_filter.1 hb).1)
        exact ⟨0, i + 1, by omega, hfirst, hi.cons (hne b hb)⟩
      · refine (ih.filter _).imp_of_mem ?_
        rintro b c hb hc ⟨i, j, hij, hi, hj⟩
        exact ⟨i + 1, j + 1, by omega, hi.cons (hne b hb), hj.cons (hne c hc)⟩

/-- The distinct values of a function on the members that pass a test. -/
theorem listsInOrder_distinct (hit : α → Bool) (f : α → β) (l : List α) :
    ListsInOrder (fun a b => hit a = true ∧ f a = b) l (distinct ((l.filter hit).map f)) := by
  rw [← List.filterMap_eq_map', List.filterMap_filter]
  refine (listsInOrder_distinct_filterMap _ l).congr fun a _ b => ?_
  by_cases ha : hit a = true
  · simp [ha]
  · simp [ha]

/-- The distinct values of a function on all members. -/
theorem listsInOrder_distinct_map (f : α → β) (l : List α) :
    ListsInOrder (fun a b => f a = b) l (distinct (l.map f)) := by
  rw [← List.filterMap_eq_map']
  exact (listsInOrder_distinct_filterMap _ l).congr fun _ _ _ => Option.some_inj

end ChangePairs
