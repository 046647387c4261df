import Mathlib.Data.List.DropRight
import ChangePairs.Path
import ChangePairs.Proofs.Text.Field

/-!
The last component of a path, and what becomes of it when the path is made absolute.  On the way
down from a root the stack of components holds nothing but names (`isName_of_mem_foldl`).  A name
at the end of a path is pushed on it and stays the last component, and anything else there leaves
some earlier name on top.

The main statement is `baseName_absolute_iff`.
-/

namespace ChangePairs
namespace Path

open Text (fields)

/-! ## The last component -/

theorem slash_notMem_baseName (p : Path) : '/' ∉ baseName p := by
  intro h
  have hslash := List.mem_rtakeWhile_imp (l := p) h
  simp at hslash

theorem baseName_isSuffix (p : Path) : baseName p <:+ p := List.rtakeWhile_suffix _ p

/-- A text that another component can follow: nothing, or a text with a slash at its end. -/
def IsFront (front : Path) : Prop := front = [] ∨ front.getLast? = some '/'

theorem baseName_append {front name : Text} (hfront : IsFront front) (hname : '/' ∉ name) :
    baseName (front ++ name) = name := by
  have hall := Text.decide_ne_of_not_mem (mt List.mem_reverse.1 hname)
  have hstop : front.reverse.takeWhile (· ≠ '/') = [] := by
    rcases hfront with rfl | hlast
    · rfl
    · obtain ⟨init, rfl⟩ := List.getLast?_eq_some_iff.1 hlast
      simp
  unfold baseName
  rw [List.reverse_append, List.takeWhile_append_of_pos hall, hstop, List.append_nil,
    List.reverse_reverse]

theorem directory_append {front name : Text} (hfront : IsFront front) (hname : '/' ∉ name) :
    directory (front ++ name) =
      if (Text.dropEnd (· = '/') front).isEmpty then front else Text.dropEnd (· = '/') front := by
  have hall := Text.decide_ne_of_not_mem (mt List.mem_reverse.1 hname)
  have hstop : front.reverse.dropWhile (· ≠ '/') = front.reverse := by
    rcases hfront with rfl | hlast
    · rfl
    · obtain ⟨init, rfl⟩ := List.getLast?_eq_some_iff.1 hlast
      simp
  unfold directory
  rw [List.reverse_append, List.dropWhile_append_of_pos hall, hstop, List.reverse_reverse]

theorem IsFront.append {x y : Path} (hx : IsFront x) (hy : IsFront y) : IsFront (x ++ y) := by
  rcases hy with rfl | hlast
  · rwa [List.append_nil]
  · right
    rw [List.getLast?_append, hlast]
    rfl

theorem isFront_concat (x : Path) : IsFront (x ++ ['/']) := .inr (by simp)

/-- The last of some components stands behind the others and their slashes. -/
theorem exists_front_join (init : List Text) (last : Text) :
    ∃ front, Text.join ['/'] (init ++ [last]) = front ++ last ∧ IsFront front := by
  induction init with
  | nil => exact ⟨[], by simp [Text.join], .inl rfl⟩
  | cons a init ih =>
    obtain ⟨front, hjoin, hfront⟩ := ih
    refine ⟨a ++ ['/'] ++ front, ?_, (isFront_concat a).append hfront⟩
    have hcons : Text.join ['/'] (a :: (init ++ [last])) =
        a ++ ['/'] ++ Text.join ['/'] (init ++ [last]) := by
      unfold Text.join
      exact List.intercalate_cons_of_ne_nil (by simp)
    rw [List.cons_append, hcons, hjoin, List.append_assoc (a ++ ['/'])]

theorem exists_fields_concat (p : Path) : ∃ init, fields '/' p = init ++ [baseName p] := by
  rcases List.eq_nil_or_concat' (fields '/' p) with hnil | ⟨init, last, hfields⟩
  · exact absurd hnil (Text.fields_ne_nil '/' p)
  · refine ⟨init, ?_⟩
    have hslash : '/' ∉ last := by
      have hmem : last ∈ fields '/' p := by
        rw [hfields]
        exact List.mem_append_right _ List.mem_cons_self
      exact Text.not_mem_of_mem_fields hmem
    obtain ⟨front, hjoin, hfront⟩ := exists_front_join init last
    have hp := Text.join_fields '/' p
    rw [hfields, hjoin] at hp
    rw [hfields, ← hp, baseName_append hfront hslash]

/-! ## Names -/

structure IsName (component : Text) : Prop where
  ne_nil : component ≠ []
  ne_dot : component ≠ ['.']
  ne_dots : component ≠ ['.', '.']
  slash_notMem : '/' ∉ component

theorem push_of_isName {component : Text} (h : IsName component) (stack : List Text) :
    push true stack component = component :: stack := by
  unfold push
  rw [if_neg (by simp [h.ne_nil, h.ne_dot]), if_pos (.inl h.ne_dots)]

/-- What is no name leaves the names on the stack, or takes one of them away. -/
theorem push_isSuffix {stack : List Text} (hstack : ∀ name ∈ stack, IsName name)
    {component : Text} (hslash : '/' ∉ component) (h : ¬ IsName component) :
    push true stack component <:+ stack := by
  by_cases hdot : component = [] ∨ component = ['.']
  · have hsame : push true stack component = stack := if_pos hdot
    exact ⟨[], hsame⟩
  · have hdots : component = ['.', '.'] := by
      by_contra hdots
      exact h ⟨fun hnil => hdot (.inl hnil), fun hone => hdot (.inr hone), hdots, hslash⟩
    have hhead : stack.head? ≠ some ['.', '.'] := by
      intro hhead
      exact (hstack _ (List.mem_of_head? hhead)).ne_dots rfl
    unfold push
    rw [if_neg hdot, if_neg (by simp [hdots, hhead])]
    exact List.drop_suffix 1 stack

theorem isName_of_mem_push {stack : List Text} (hstack : ∀ name ∈ stack, IsName name)
    {component : Text} (hslash : '/' ∉ component) :
    ∀ name ∈ push true stack component, IsName name := by
  by_cases h : IsName component
  · rw [push_of_isName h]
    exact List.forall_mem_cons.2 ⟨h, hstack⟩
  · intro name hname
    exact hstack name ((push_isSuffix hstack hslash h).subset hname)

theorem isName_of_mem_foldl {components stack : List Text} (hstack : ∀ name ∈ stack, IsName name)
    (hslash : ∀ component ∈ components, '/' ∉ component) :
    ∀ name ∈ components.foldl (push true) stack, IsName name := by
  induction components generalizing stack with
  | nil => exact hstack
  | cons component components ih =>
    rw [List.forall_mem_cons] at hslash
    exact ih (isName_of_mem_push hstack hslash.1) hslash.2

theorem isName_of_mem_stack (p : Path) :
    ∀ name ∈ (fields '/' p).foldl (push true) [], IsName name :=
  isName_of_mem_foldl nofun fun _ hcomponent => Text.not_mem_of_mem_fields hcomponent

/-! ## Absolute paths -/

theorem root_cases {p : Path} (h : p.head? = some '/') : root p = ['/'] ∨ root p = ['/', '/'] := by
  obtain ⟨rest, rfl⟩ : ∃ rest, p = '/' :: rest := by
    cases p with
    | nil => nomatch h
    | cons c rest => exact ⟨rest, by rw [Option.some.inj h]⟩
  unfold root
  split <;> simp_all

theorem root_of_head? {p : Path} (h : p.head? = some '/') :
    root p ≠ [] ∧ IsFront (root p) := by
  rcases root_cases h with hroot | hroot
  · rw [hroot]
    exact ⟨List.cons_ne_nil _ _, .inr rfl⟩
  · rw [hroot]
    exact ⟨List.cons_ne_nil _ _, .inr rfl⟩

theorem normalize_of_head? {p : Path} (h : p.head? = some '/') :
    normalize p =
      root p ++ Text.join ['/'] ((fields '/' p).foldl (push true) []).reverse := by
  have hroot := (root_of_head? h).1
  have hrooted : (!(root p).isEmpty) = true := by simpa using hroot
  unfold normalize
  rw [hrooted]
  exact if_neg (by simp [hroot])

/-- The last component of a normal path is on top of the stack. -/
theorem baseName_normalize {p : Path} (h : p.head? = some '/') :
    baseName (normalize p) = ((fields '/' p).foldl (push true) []).headD [] := by
  have hfront := (root_of_head? h).2
  have hnames := isName_of_mem_stack p
  rw [normalize_of_head? h]
  cases hstack : (fields '/' p).foldl (push true) [] with
  | nil => exact baseName_append hfront List.not_mem_nil
  | cons top below =>
    have htop : IsName top := hnames top (hstack ▸ List.mem_cons_self)
    obtain ⟨front, hjoin, hslash⟩ := exists_front_join below.reverse top
    rw [List.reverse_cons, hjoin, ← List.append_assoc]
    exact baseName_append (hfront.append hslash) htop.slash_notMem

theorem head?_join {base : Path} (h : base.head? = some '/') (p : Path) :
    (join base p).head? = some '/' := by
  unfold join
  split_ifs with hp hbase
  · exact hp
  · rw [List.head?_append, h]
    rfl
  · rw [List.head?_append, h]
    rfl

theorem baseName_join {base : Path} (h : base ≠ []) (p : Path) :
    baseName (join base p) = baseName p := by
  obtain ⟨init, hfields⟩ := exists_fields_concat p
  obtain ⟨front, hjoin, hfront⟩ := exists_front_join init (baseName p)
  rw [← hfields, Text.join_fields] at hjoin
  have hbehind : ∀ x : Path, IsFront x → baseName (x ++ p) = baseName p := by
    intro x hx
    conv_lhs => rw [hjoin, ← List.append_assoc]
    exact baseName_append (hx.append hfront) (slash_notMem_baseName p)
  unfold join
  split_ifs with hp hbase
  · rfl
  · exact hbehind base (.inr (hbase.resolve_left (by simpa using h)))
  · have hslash := hbehind (base ++ ['/']) (isFront_concat base)
    rwa [List.append_assoc] at hslash

/-- Unless a path leads to a root, it keeps its last component when it is made absolute if and only
if that component is a name. -/
theorem baseName_absolute_iff {cwd p : Path} (hcwd : cwd.head? = some '/')
    (hname : baseName (absolute cwd p) ≠ []) :
    baseName (absolute cwd p) = baseName p ↔ IsName (baseName p) := by
  have hne : cwd ≠ [] := by
    rintro rfl
    nomatch hcwd
  obtain ⟨init, hfields⟩ := exists_fields_concat (join cwd p)
  have hslash : ∀ component ∈ init, '/' ∉ component := by
    intro component hcomponent
    have hmem : component ∈ fields '/' (join cwd p) := by
      rw [hfields]
      exact List.mem_append_left _ hcomponent
    exact Text.not_mem_of_mem_fields hmem
  have hstack : ∀ name ∈ init.foldl (push true) [], IsName name := isName_of_mem_foldl nofun hslash
  have htop : baseName (absolute cwd p) =
      (push true (init.foldl (push true) []) (baseName p)).headD [] := by
    unfold absolute
    rw [baseName_normalize (head?_join hcwd p), hfields, List.foldl_append, baseName_join hne]
    rfl
  constructor
  · intro hsame
    have hnames := isName_of_mem_push hstack (slash_notMem_baseName p)
    rw [htop] at hname hsame
    cases hpush : push true (init.foldl (push true) []) (baseName p) with
    | nil =>
      rw [hpush] at hname
      exact absurd rfl hname
    | cons top below =>
      rw [hpush] at hsame hnames
      have htop : top = baseName p := hsame
      exact htop ▸ hnames top List.mem_cons_self
  · intro h
    rw [htop, push_of_isName h]
    rfl

end Path
end ChangePairs
