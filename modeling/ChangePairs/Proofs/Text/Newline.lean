import ChangePairs.Proofs.Text.Line
import ChangePairs.Text.Newline

/-!
Lines when every line end is turned into a line feed.  A line is turned into one line, and keeps
its number, unless there is a carriage return in it before its terminator (`IsPlain`): such a line
comes apart, and all lines below it move down.

The two main statements are `take_lines_unifyNewlines_iff`, that the first lines of a text keep
their numbers if and only if all of them are plain, and `dropTerminator_unifyNewlines`, that the
terminator at the end may be dropped before or afterwards.
-/

namespace ChangePairs
namespace Text

/-! ## Characters -/

theorem unifyNewlines_cons {c : Char} (h : c ≠ '\r') (t : Text) :
    unifyNewlines (c :: t) = c :: unifyNewlines t := by
  rw [unifyNewlines, if_neg h]
  intro rest hc
  exact absurd hc h

theorem unifyNewlines_return {t : Text} (h : t.head? ≠ some '\n') :
    unifyNewlines ('\r' :: t) = '\n' :: unifyNewlines t := by
  rw [unifyNewlines, if_pos rfl]
  rintro rest - rfl
  exact h rfl

theorem exists_unifyNewlines_cons (c : Char) (t : Text) :
    ∃ u, unifyNewlines (c :: t) = (if c = '\r' then '\n' else c) :: u := by
  unfold unifyNewlines
  split
  · next hnil => nomatch hnil
  · next rest heq =>
    obtain ⟨rfl, -⟩ := List.cons.inj heq
    exact ⟨_, rfl⟩
  · next d rest _ heq =>
    obtain ⟨rfl, -⟩ := List.cons.inj heq
    exact ⟨_, rfl⟩

/-- Texts are turned one by one, unless a carriage return and its line feed would be parted. -/
theorem unifyNewlines_append {x y : Text} (h : x.getLast? ≠ some '\r' ∨ y.head? ≠ some '\n') :
    unifyNewlines (x ++ y) = unifyNewlines x ++ unifyNewlines y := by
  fun_induction unifyNewlines x with
  | case1 => rfl
  | case2 rest ih =>
    have hrest : rest.getLast? ≠ some '\r' ∨ y.head? ≠ some '\n' := by
      cases rest with
      | nil => simp
      | cons d rest => simpa [List.getLast?_cons_cons] using h
    exact congrArg ('\n' :: ·) (ih hrest)
  | case3 c rest hreturn ih =>
    have hrest : rest.getLast? ≠ some '\r' ∨ y.head? ≠ some '\n' := by
      cases rest with
      | nil => simp
      | cons d rest => simpa [List.getLast?_cons_cons] using h
    by_cases hc : c = '\r'
    · subst hc
      have hhead : (rest ++ y).head? ≠ some '\n' := by
        cases rest with
        | nil => simpa using h
        | cons d rest =>
          rintro hd
          obtain rfl := Option.some.inj hd
          exact hreturn rest rfl rfl
      rw [List.cons_append, unifyNewlines_return hhead, if_pos rfl, ih hrest, List.cons_append]
    · rw [List.cons_append, unifyNewlines_cons hc, if_neg hc, ih hrest, List.cons_append]

theorem unifyNewlines_of_not_mem {x : Text} (h : '\r' ∉ x) : unifyNewlines x = x := by
  induction x with
  | nil => rfl
  | cons c x ih =>
    simp only [List.mem_cons, not_or] at h
    rw [unifyNewlines_cons (Ne.symm h.1), ih h.2]

theorem unifyNewlines_append_of_not_mem {x : Text} (h : '\r' ∉ x) (y : Text) :
    unifyNewlines (x ++ y) = x ++ unifyNewlines y := by
  have hlast : x.getLast? ≠ some '\r' := fun hlast => h (List.mem_of_getLast? hlast)
  rw [unifyNewlines_append (.inl hlast), unifyNewlines_of_not_mem h]

theorem unifyNewlines_ne_nil {x : Text} (h : x ≠ []) : unifyNewlines x ≠ [] := by
  obtain ⟨c, t, rfl⟩ := List.exists_cons_of_ne_nil h
  obtain ⟨u, hu⟩ := exists_unifyNewlines_cons c t
  rw [hu]
  exact List.cons_ne_nil _ _

theorem return_not_mem_unifyNewlines (x : Text) : '\r' ∉ unifyNewlines x := by
  fun_induction unifyNewlines x with
  | case1 => simp
  | case2 rest ih => simpa using ih
  | case3 c rest _ ih =>
    by_cases hc : c = '\r'
    · simpa [hc] using ih
    · simpa [hc, Ne.symm hc] using ih

theorem feed_mem_unifyNewlines_iff {x : Text} (h : '\n' ∉ x) :
    '\n' ∈ unifyNewlines x ↔ '\r' ∈ x := by
  fun_induction unifyNewlines x with
  | case1 => simp
  | case2 rest _ => simp at h
  | case3 c rest _ ih =>
    simp only [List.mem_cons, not_or] at h
    by_cases hc : c = '\r'
    · simp [hc]
    · simp [hc, Ne.symm hc, h.1, ih h.2]

/-! ## The terminator at the end -/

theorem dropReturn_of_not_mem {x : Text} (h : '\r' ∉ x) : dropReturn x = x := by
  unfold dropReturn
  rw [if_neg]
  intro hlast
  exact h (List.mem_of_getLast? hlast)

theorem dropReturn_return (x : Text) : dropReturn (x ++ ['\r']) = x := by
  simp [dropReturn]

theorem unifyNewlines_feed {x : Text} (h : x.getLast? ≠ some '\r') :
    unifyNewlines (x ++ ['\n']) = unifyNewlines x ++ ['\n'] :=
  unifyNewlines_append (.inl h)

theorem unifyNewlines_returnFeed (x : Text) :
    unifyNewlines (x ++ ['\r'] ++ ['\n']) = unifyNewlines x ++ ['\n'] := by
  rw [List.append_assoc]
  exact unifyNewlines_append (.inr (by simp))

/-- Whatever a text ends in is turned into one line feed. -/
theorem dropTerminator_unifyNewlines (x : Text) :
    dropTerminator (unifyNewlines x) = unifyNewlines (dropTerminator x) := by
  have hdrop : ∀ y : Text, dropTerminator (unifyNewlines y ++ ['\n']) = unifyNewlines y := by
    intro y
    rw [dropTerminator_feed, dropReturn_of_not_mem (return_not_mem_unifyNewlines y)]
  cases hlast : x.getLast? with
  | none =>
    rw [List.getLast?_eq_none_iff.1 hlast]
    rfl
  | some c =>
    obtain ⟨y, rfl⟩ := List.getLast?_eq_some_iff.1 hlast
    by_cases hfeed : c = '\n'
    · subst hfeed
      rw [dropTerminator_feed]
      by_cases hreturn : y.getLast? = some '\r'
      · obtain ⟨z, rfl⟩ := List.getLast?_eq_some_iff.1 hreturn
        rw [unifyNewlines_returnFeed, hdrop, dropReturn_return]
      · rw [unifyNewlines_feed hreturn, hdrop, dropReturn, if_neg hreturn]
    · have happend : unifyNewlines (y ++ [c]) = unifyNewlines y ++ unifyNewlines [c] :=
        unifyNewlines_append (.inr (by simpa using hfeed))
      rw [dropTerminator_of_getLast? hlast hfeed]
      by_cases hreturn : c = '\r'
      · subst hreturn
        rw [happend, dropReturn_return]
        exact hdrop y
      · have hone : unifyNewlines [c] = [c] := unifyNewlines_cons hreturn []
        have hnone := return_not_mem_unifyNewlines (y ++ [c])
        rw [happend, hone] at hnone ⊢
        rw [dropTerminator_of_getLast? (by simp) hfeed, dropReturn_of_not_mem hnone, dropReturn,
          if_neg (by simpa using hreturn), happend, hone]

theorem dropTerminator_of_not_mem {x : Text} (h : '\r' ∉ x) : dropTerminator x = chompLine x := by
  cases hlast : x.getLast? with
  | none =>
    rw [List.getLast?_eq_none_iff.1 hlast]
    rfl
  | some c =>
    by_cases hfeed : c = '\n'
    · obtain ⟨y, rfl⟩ := List.getLast?_eq_some_iff.1 hlast
      have hy : '\r' ∉ y := fun hy => h (List.mem_append_left _ hy)
      rw [hfeed, dropTerminator_feed, chompLine_feed, dropReturn_of_not_mem hy]
    · rw [dropTerminator_of_getLast? hlast hfeed, dropReturn_of_not_mem h]
      refine (eq_chompLine_or x).resolve_right fun hx => ?_
      rw [hx, List.getLast?_concat] at hlast
      exact hfeed (Option.some.inj hlast).symm

/-! ## One line -/

/-- There is no carriage return in a line, except in its terminator. -/
def IsPlain (line : Text) : Prop := '\r' ∉ dropTerminator line

instance : DecidablePred IsPlain :=
  fun line => inferInstanceAs (Decidable (¬ '\r' ∈ dropTerminator line))

theorem lines_eq_singleton_iff {x : Text} : lines x = [x] ↔ x ≠ [] ∧ '\n' ∉ chompLine x := by
  constructor
  · intro h
    have hlines := areLines_lines x
    rw [h] at hlines
    cases hlines with
    | last feedless nonempty =>
      rw [chompLine_of_not_mem feedless]
      exact ⟨nonempty, feedless⟩
    | cons feedless =>
      rw [chompLine_feed]
      exact ⟨by simp, feedless⟩
  · rintro ⟨hne, hfeed⟩
    rcases eq_chompLine_or x with hx | hx
    · rw [← hx] at hfeed
      exact lines_of_not_mem hfeed hne
    · have hlines := lines_feed hfeed []
      rwa [List.append_nil, ← hx] at hlines

/-- A line is turned into one line if and only if it is plain. -/
theorem lines_unifyNewlines_iff {line : Text} (h : lines line = [line]) :
    lines (unifyNewlines line) = [unifyNewlines line] ↔ IsPlain line := by
  obtain ⟨hne, hfeed⟩ := lines_eq_singleton_iff.1 h
  have hbody : '\n' ∉ dropTerminator line := by
    have hareLines : AreLines [line] := h ▸ areLines_lines line
    have hdrop : dropTerminator line = dropReturn (chompLine line) := by
      simpa [join] using dropTerminator_flatten hareLines (List.cons_ne_nil line [])
    rw [hdrop, dropReturn]
    split
    · exact fun hmem => hfeed (List.dropLast_subset _ hmem)
    · exact hfeed
  rw [lines_eq_singleton_iff, ← dropTerminator_of_not_mem (return_not_mem_unifyNewlines line),
    dropTerminator_unifyNewlines, feed_mem_unifyNewlines_iff hbody]
  exact and_iff_right (unifyNewlines_ne_nil hne)

/-! ## All lines -/

/-- Each line is turned by itself into one line or several. -/
theorem lines_unifyNewlines {ls : List Text} (h : AreLines ls) :
    lines (unifyNewlines ls.flatten) = ls.flatMap fun line => lines (unifyNewlines line) := by
  induction h with
  | nil => rfl
  | last => simp
  | @cons x ls feedless rest ih =>
    have hlast : (x ++ ['\n']).getLast? ≠ some '\r' := by simp
    have hfeed : (unifyNewlines (x ++ ['\n'])).getLast? = some '\n' := by
      by_cases hx : x.getLast? = some '\r'
      · obtain ⟨y, rfl⟩ := List.getLast?_eq_some_iff.1 hx
        rw [unifyNewlines_returnFeed]
        simp
      · rw [unifyNewlines_feed hx]
        simp
    rw [List.flatten_cons, unifyNewlines_append (.inl hlast), lines_append (.inr hfeed), ih,
      List.flatMap_cons]

theorem flatten_map_unifyNewlines {ls : List Text} (h : AreLines ls) :
    (ls.map unifyNewlines).flatten = unifyNewlines ls.flatten := by
  induction h with
  | nil => rfl
  | last => simp
  | cons _ _ ih =>
    rw [List.map_cons, List.flatten_cons, ih, ← unifyNewlines_append (.inl (by simp)),
      List.flatten_cons]

/-- The first piece of a line is all of it if and only if the line is plain. -/
theorem first_eq_iff {line first : Text} {rest : List Text} (h : lines line = [line])
    (hpieces : lines (unifyNewlines line) = first :: rest) :
    first = unifyNewlines line ↔ IsPlain line := by
  rw [← lines_unifyNewlines_iff h, hpieces]
  constructor
  · intro hfirst
    have hflatten := flatten_lines (unifyNewlines line)
    rw [hpieces, List.flatten_cons, ← hfirst] at hflatten
    have hnil : rest.flatten = [] :=
      List.append_cancel_left (hflatten.trans (List.append_nil first).symm)
    have hrest : rest = [] := by
      refine List.eq_nil_iff_forall_not_mem.2 fun piece hpiece => ?_
      have hmem : piece ∈ lines (unifyNewlines line) := hpieces ▸ List.mem_cons_of_mem _ hpiece
      exact ne_nil_of_mem_lines hmem (List.flatten_eq_nil_iff.1 hnil piece hpiece)
    rw [hrest, hfirst]
  · intro hone
    exact (List.cons.inj hone).1

theorem take_flatMap_lines_iff {ls : List Text} (h : ∀ line ∈ ls, lines line = [line]) (n : Nat) :
    (ls.flatMap fun line => lines (unifyNewlines line)).take n =
        (ls.take n).map unifyNewlines ↔
      ∀ line ∈ ls.take n, IsPlain line := by
  induction ls generalizing n with
  | nil => simp
  | cons line ls ih =>
    cases n with
    | zero => simp
    | succ n =>
      have hline := h line List.mem_cons_self
      have ih := ih (fun l hl => h l (List.mem_cons_of_mem line hl)) n
      have hne := unifyNewlines_ne_nil (lines_eq_singleton_iff.1 hline).1
      obtain ⟨first, rest, hpieces⟩ := List.exists_cons_of_ne_nil (mt lines_eq_nil_iff.1 hne)
      have hfirst := first_eq_iff hline hpieces
      rw [List.flatMap_cons, hpieces, List.cons_append, List.take_succ_cons, List.take_succ_cons,
        List.map_cons, List.cons.injEq, hfirst, List.forall_mem_cons]
      refine and_congr_right fun hplain => ?_
      -- A plain line leaves nothing behind its first piece.
      have hrest : rest = [] := by
        have hone := (lines_unifyNewlines_iff hline).2 hplain
        rw [hpieces] at hone
        exact (List.cons.inj hone).2
      rw [hrest]
      exact ih

theorem lines_of_mem_lines {t line : Text} (h : line ∈ lines t) : lines line = [line] := by
  have hlines : ∀ {ls : List Text}, AreLines ls → ∀ l ∈ ls, lines l = [l] := by
    intro ls hls
    induction hls with
    | nil => simp
    | last feedless nonempty => simpa using lines_of_not_mem feedless nonempty
    | cons feedless _ ih =>
      refine List.forall_mem_cons.2 ⟨?_, ih⟩
      simpa [lines] using lines_feed feedless []
  exact hlines (areLines_lines t) line h

/-- The first lines of a text keep their numbers if and only if all of them are plain. -/
theorem take_lines_unifyNewlines_iff (t : Text) (n : Nat) :
    (lines (unifyNewlines t)).take n = ((lines t).take n).map unifyNewlines ↔
      ∀ line ∈ (lines t).take n, IsPlain line := by
  have hlines := lines_unifyNewlines (areLines_lines t)
  rw [flatten_lines] at hlines
  rw [hlines]
  exact take_flatMap_lines_iff (fun _ hline => lines_of_mem_lines hline) n

end Text
end ChangePairs
