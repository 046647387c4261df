import ChangePairs.Proofs.Path
import ChangePairs.Proofs.Text.Part

/-!
Normal paths: a root and names behind it.  Making a path absolute gives a normal one
(`isNormal_absolute`), and to a normal path it does nothing, wherever one is
(`IsNormal.absolute_eq`).  So it does nothing the second time.

A file in a normal directory has a normal path as well, and the directory of that path is the one it
was put together from (`IsNormal.join`), also where the directory is a root, of one slash or of two.
-/

namespace ChangePairs
namespace Path

open Text (fields)

structure IsNormal (p : Path) : Prop where
  root : root p = ['/'] ∨ root p = ['/', '/']
  names : ∃ names, (∀ name ∈ names, IsName name) ∧ p = Path.root p ++ Text.join ['/'] names

theorem head?_join_names {names : List Text} (h : ∀ name ∈ names, IsName name) :
    (Text.join ['/'] names).head? ≠ some '/' := by
  cases names with
  | nil => nofun
  | cons name names =>
    have hname := h name List.mem_cons_self
    obtain ⟨c, rest, rfl⟩ := List.exists_cons_of_ne_nil hname.ne_nil
    have hslash : c ≠ '/' := fun heq => hname.slash_notMem (heq ▸ List.mem_cons_self)
    cases names <;> simpa [Text.join, List.intercalate] using hslash

/-- Behind a root, names do not begin with one more slash. -/
theorem root_append_join {slashes : Path} (hslashes : slashes = ['/'] ∨ slashes = ['/', '/'])
    {names : List Text} (hnames : ∀ name ∈ names, IsName name) :
    root (slashes ++ Text.join ['/'] names) = slashes := by
  have hhead := head?_join_names hnames
  generalize Text.join ['/'] names = t at hhead
  cases t with
  | nil => rcases hslashes with rfl | rfl <;> rfl
  | cons c t =>
    have hc : c ≠ '/' := fun heq => hhead (heq ▸ rfl)
    rcases hslashes with rfl | rfl
    · simp [root, hc]
    · simp [root, hc]

theorem isNormal_root_append {slashes : Path} (hslashes : slashes = ['/'] ∨ slashes = ['/', '/'])
    {names : List Text} (hnames : ∀ name ∈ names, IsName name) :
    IsNormal (slashes ++ Text.join ['/'] names) := by
  have hroot := root_append_join hslashes hnames
  exact ⟨hroot.symm ▸ hslashes, names, hnames, by rw [hroot]⟩

/-- Names are stacked one on the other. -/
theorem foldl_push_names {names : List Text} (h : ∀ name ∈ names, IsName name)
    (stack : List Text) : names.foldl (push true) stack = names.reverse ++ stack := by
  induction names generalizing stack with
  | nil => rfl
  | cons name names ih =>
    rw [List.forall_mem_cons] at h
    rw [List.foldl_cons, push_of_isName h.1, ih h.2, List.reverse_cons, List.append_assoc]
    rfl

theorem foldl_push_fields {slashes : Path} (hslashes : slashes = ['/'] ∨ slashes = ['/', '/'])
    {names : List Text} (h : ∀ name ∈ names, IsName name) :
    (fields '/' (slashes ++ Text.join ['/'] names)).foldl (push true) [] = names.reverse := by
  have hbehind : (fields '/' (Text.join ['/'] names)).foldl (push true) [] = names.reverse := by
    by_cases hne : names = []
    · subst hne
      rfl
    · rw [Text.fields_join (fun name hname => (h name hname).slash_notMem) hne,
        foldl_push_names h, List.append_nil]
  -- What stands before a slash of the root is an empty component, which is not pushed.
  have hslash (t : Text) (stack : List Text) :
      (fields '/' ('/' :: t)).foldl (push true) stack = (fields '/' t).foldl (push true) stack := by
    simp [fields, push]
  rcases hslashes with rfl | rfl
  · rw [List.singleton_append, hslash, hbehind]
  · show (fields '/' ('/' :: '/' :: Text.join ['/'] names)).foldl (push true) [] = _
    rw [hslash, hslash, hbehind]

theorem IsNormal.head? {p : Path} (h : IsNormal p) : p.head? = some '/' := by
  obtain ⟨names, -, hp⟩ := h.names
  rw [hp]
  rcases h.root with hroot | hroot <;> rw [hroot] <;> rfl

theorem IsNormal.normalize_eq {p : Path} (h : IsNormal p) : normalize p = p := by
  obtain ⟨names, hnames, hp⟩ := h.names
  have hstack : (fields '/' p).foldl (push true) [] = names.reverse := by
    rw [hp]
    exact foldl_push_fields h.root hnames
  rw [normalize_of_head? h.head?, hstack, List.reverse_reverse, ← hp]

/-- A normal path is the same from everywhere. -/
theorem IsNormal.absolute_eq {p : Path} (h : IsNormal p) (cwd : Path) : absolute cwd p = p := by
  unfold absolute join
  rw [if_pos h.head?, h.normalize_eq]

theorem isNormal_normalize {p : Path} (h : p.head? = some '/') : IsNormal (normalize p) := by
  have hnames : ∀ name ∈ ((fields '/' p).foldl (push true) []).reverse, IsName name :=
    fun name hname => isName_of_mem_stack p name (List.mem_reverse.1 hname)
  rw [normalize_of_head? h]
  exact isNormal_root_append (root_cases h) hnames

theorem isNormal_absolute {cwd : Path} (hcwd : cwd.head? = some '/') (p : Path) :
    IsNormal (absolute cwd p) :=
  isNormal_normalize (head?_join hcwd p)

/-- Making a path absolute does nothing the second time. -/
theorem absolute_absolute {cwd : Path} (hcwd : cwd.head? = some '/') (p : Path) :
    absolute cwd (absolute cwd p) = absolute cwd p :=
  (isNormal_absolute hcwd p).absolute_eq cwd

/-! ## Files in a directory -/

theorem join_names_concat {names : List Text} (h : names ≠ []) (last : Text) :
    Text.join ['/'] (names ++ [last]) = Text.join ['/'] names ++ '/' :: last := by
  unfold Text.join
  induction names with
  | nil => exact absurd rfl h
  | cons a rest ih =>
    by_cases hrest : rest = []
    · subst hrest
      simp [List.intercalate]
    · rw [List.cons_append, List.intercalate_cons_of_ne_nil (by simp), ih hrest,
        List.intercalate_cons_of_ne_nil hrest]
      exact (List.append_assoc _ _ _).symm

/-- The last of some names ends with no slash. -/
theorem exists_join_concat {names : List Text} (hnames : ∀ name ∈ names, IsName name)
    (hne : names ≠ []) : ∃ front c, Text.join ['/'] names = front ++ [c] ∧ c ≠ '/' := by
  obtain ⟨init, last, rfl⟩ := (List.eq_nil_or_concat' names).resolve_left hne
  have hlast := hnames last (List.mem_append_right _ List.mem_cons_self)
  obtain ⟨stem, c, rfl⟩ := (List.eq_nil_or_concat' last).resolve_left hlast.ne_nil
  obtain ⟨front, hjoin, -⟩ := exists_front_join init (stem ++ [c])
  refine ⟨front ++ stem, c, by rw [hjoin, List.append_assoc], ?_⟩
  rintro rfl
  exact hlast.slash_notMem (by simp)

/-- A file directly below a root. -/
theorem join_root {slashes : Path} (hslashes : slashes = ['/'] ∨ slashes = ['/', '/'])
    {name : Text} (hname : IsName name) :
    join slashes name = slashes ++ name ∧ directory (slashes ++ name) = slashes := by
  have hhead : name.head? ≠ some '/' := fun hhead => hname.slash_notMem (List.mem_of_head? hhead)
  have hlast : slashes.getLast? = some '/' := by rcases hslashes with rfl | rfl <;> rfl
  have hdrop : Text.dropEnd (· = '/') slashes = [] := by rcases hslashes with rfl | rfl <;> rfl
  constructor
  · unfold join
    rw [if_neg hhead, if_pos (.inr hlast)]
  · rw [directory_append (.inr hlast) hname.slash_notMem, hdrop]
    rfl

/-- A file in a directory whose path does not end in a slash. -/
theorem join_below (front : Path) {c : Char} (hc : c ≠ '/') {name : Text} (hname : IsName name) :
    join (front ++ [c]) name = front ++ [c] ++ '/' :: name ∧
      directory (front ++ [c] ++ '/' :: name) = front ++ [c] := by
  have hhead : name.head? ≠ some '/' := fun hhead => hname.slash_notMem (List.mem_of_head? hhead)
  have hopen : ¬ ((front ++ [c]).isEmpty = true ∨ (front ++ [c]).getLast? = some '/') := by
    simp [hc]
  have hdrop : Text.dropEnd (· = '/') (front ++ [c] ++ ['/']) = front ++ [c] := by
    rw [Text.dropEnd_append (by simp [hc])]
    exact List.append_nil _
  constructor
  · unfold join
    rw [if_neg hhead, if_neg hopen]
  · rw [List.append_cons, directory_append (isFront_concat _) hname.slash_notMem, hdrop,
      if_neg (by simp)]

/-- A file in a normal directory has a normal path, from which the directory is found again. -/
theorem IsNormal.join {d : Path} (h : IsNormal d) {name : Text} (hname : IsName name) :
    IsNormal (join d name) ∧ directory (join d name) = d := by
  obtain ⟨hslashes, names, hnames, hd⟩ := h
  generalize Path.root d = slashes at hslashes hd
  by_cases hne : names = []
  · have hroot : d = slashes := by
      rw [hd, hne]
      exact List.append_nil slashes
    have hone : ∀ n ∈ [name], IsName n := by simpa using hname
    have hnormal := isNormal_root_append hslashes hone
    rw [show Text.join ['/'] [name] = name from List.intercalate_singleton] at hnormal
    obtain ⟨hjoin, hdirectory⟩ := join_root hslashes hname
    rw [hroot, hjoin]
    exact ⟨hnormal, hdirectory⟩
  · obtain ⟨front, c, hlast, hc⟩ := exists_join_concat hnames hne
    have hbelow : d = slashes ++ front ++ [c] := by rw [hd, hlast, List.append_assoc]
    have hall : ∀ n ∈ names ++ [name], IsName n :=
      List.forall_mem_append.2 ⟨hnames, by simpa using hname⟩
    have hnormal := isNormal_root_append hslashes hall
    rw [join_names_concat hne, ← List.append_assoc, ← hd] at hnormal
    obtain ⟨hjoin, hdirectory⟩ := join_below (slashes ++ front) hc hname
    rw [hbelow] at hnormal ⊢
    rw [hjoin]
    exact ⟨hnormal, hdirectory⟩

end Path
end ChangePairs
