import Mathlib.Data.List.Forall2

/-!
Lists that are gone through side by side.  What holds of the pairs is carried over to the members:
each member has a partner (`exists_of_forall₂`), a list has partners if each of its members has one
(`exists_forall₂`), and a search finds something in both lists or in neither (`exists_mem_congr`).
The values of a partial function on a list are its partners (`mapM_eq_some_iff`).
-/

namespace ChangePairs

variable {α β : Type}

theorem exists_of_forall₂ {r : α → β → Prop} {as : List α} {bs : List β}
    (h : List.Forall₂ r as bs) {a : α} (ha : a ∈ as) : ∃ b ∈ bs, r a b := by
  induction h with
  | nil => simp at ha
  | cons hab _ ih =>
    rcases List.mem_cons.1 ha with rfl | ha
    · exact ⟨_, List.mem_cons_self, hab⟩
    · obtain ⟨b, hb, hab⟩ := ih ha
      exact ⟨b, List.mem_cons_of_mem _ hb, hab⟩

theorem exists_forall₂ {r : α → β → Prop} {as : List α} (h : ∀ a ∈ as, ∃ b, r a b) :
    ∃ bs, List.Forall₂ r as bs := by
  induction as with
  | nil => exact ⟨[], .nil⟩
  | cons a as ih =>
    obtain ⟨b, hb⟩ := h a List.mem_cons_self
    obtain ⟨bs, hbs⟩ := ih fun x hx => h x (List.mem_cons_of_mem a hx)
    exact ⟨b :: bs, .cons hb hbs⟩

theorem exists_mem_congr {p : α → Prop} {q : β → Prop} {as : List α} {bs : List β}
    (h : List.Forall₂ (fun a b => p a ↔ q b) as bs) : (∃ a ∈ as, p a) ↔ ∃ b ∈ bs, q b := by
  induction h with
  | nil => simp
  | cons hab _ ih => simp only [List.mem_cons, exists_eq_or_imp, hab, ih]

theorem mapM_eq_some_iff {f : α → Option β} {as : List α} {bs : List β} :
    as.mapM f = some bs ↔ List.Forall₂ (fun a b => f a = some b) as bs := by
  induction as generalizing bs with
  | nil =>
    rw [List.forall₂_nil_left_iff, List.mapM_nil]
    exact ⟨fun h => (Option.some.inj h).symm, fun h => h ▸ rfl⟩
  | cons a as ih =>
    rw [List.mapM_cons, List.forall₂_cons_left_iff]
    cases ha : f a with
    | none => exact iff_of_false nofun fun ⟨_, _, h, _⟩ => nomatch h
    | some b =>
      constructor
      · intro h
        cases has : as.mapM f with
        | none =>
          rw [has] at h
          nomatch h
        | some rest =>
          rw [has] at h
          obtain rfl := Option.some.inj h
          exact ⟨b, rest, rfl, ih.1 has, rfl⟩
      · rintro ⟨b', rest, hb, hrest, rfl⟩
        obtain rfl := Option.some.inj hb
        rw [ih.2 hrest]
        rfl

end ChangePairs
