import ChangePairs.Text.Line

/-!
The theory of lines.  `AreLines` says what a list of lines looks like, and `lines` is its only
reading: the lines of a text are such a list, and a list of this form is what the text it makes
up is cut into.  Runs of lines are lists of lines again, which is what lets a range be cut out of
a file and read on its own.  `IsCut` says the same without building the list up, and `lines_unique`
that no other list of the kind makes up the text.

A start of a text ends on the line that its line feeds count up to (`AreLines.endsOnLine`).

A range keeps the line feeds inside it and loses the terminator at its end.
`dropTerminator_flatten` says the same through the lines without their line feeds: they are put
together with line feeds between them, and one carriage return at the end is dropped.
-/

namespace ChangePairs
namespace Text

def bareLines (t : Text) : List Text := (lines t).map chompLine

def dropReturn (t : Text) : Text := if t.getLast? = some '\r' then t.dropLast else t

/-! ## One line -/

theorem chompLine_feed (x : Text) : chompLine (x ++ ['\n']) = x := by
  simp [chompLine]

theorem chompLine_of_not_mem {x : Text} (h : '\n' ∉ x) : chompLine x = x := by
  unfold chompLine
  split
  · next front hr =>
    have hx : x = front.reverse ++ ['\n'] := by
      rw [← List.reverse_reverse x, hr, List.reverse_cons]
    exact absurd (by rw [hx]; simp) h
  · rfl

/-- A line is what is left of it, or that and a line feed. -/
theorem eq_chompLine_or (l : Text) : l = chompLine l ∨ l = chompLine l ++ ['\n'] := by
  unfold chompLine
  split
  · next front hr =>
    right
    rw [← List.reverse_reverse l, hr, List.reverse_cons]
  · exact Or.inl rfl

theorem isPrefix_chompLine (l : Text) : chompLine l <+: l := by
  rcases eq_chompLine_or l with h | h
  · exact ⟨[], by rw [List.append_nil, ← h]⟩
  · exact ⟨['\n'], h.symm⟩

/-! ## Lists of lines -/

/-- What a list of lines looks like: no line is empty, no line has a line feed before its end, and
only the last one may lack it. -/
inductive AreLines : List Text → Prop where
  | nil : AreLines []
  | last {x : Text} (feedless : '\n' ∉ x) (nonempty : x ≠ []) : AreLines [x]
  | cons {x : Text} {ls : List Text} (feedless : '\n' ∉ x) (rest : AreLines ls) :
    AreLines ((x ++ ['\n']) :: ls)

theorem areLines_lines (t : Text) : AreLines (lines t) := by
  induction t with
  | nil => exact .nil
  | cons c rest ih =>
    simp only [lines]
    split
    · exact .cons (x := []) (by simp) ih
    · next hc =>
      have hne : '\n' ≠ c := fun h => hc h.symm
      split
      · exact .last (by simp [hne]) (by simp)
      · next line more hl =>
        rw [hl] at ih
        cases ih with
        | last feedless => exact .last (by simp [hne, feedless]) (by simp)
        | cons feedless ih =>
          exact .cons (x := c :: _) (by simp [hne, feedless]) ih

theorem lines_of_not_mem {x : Text} (h : '\n' ∉ x) (hne : x ≠ []) : lines x = [x] := by
  induction x with
  | nil => exact absurd rfl hne
  | cons c rest ih =>
    simp only [List.mem_cons, not_or] at h
    rw [lines, if_neg (fun hc => h.1 hc.symm)]
    by_cases hr : rest = []
    · rw [hr]
      rfl
    · rw [ih h.2 hr]

theorem lines_feed {x : Text} (h : '\n' ∉ x) (rest : Text) :
    lines (x ++ ['\n'] ++ rest) = (x ++ ['\n']) :: lines rest := by
  rw [lines_append (Or.inr (by simp))]
  suffices hx : lines (x ++ ['\n']) = [x ++ ['\n']] by rw [hx, List.singleton_append]
  induction x with
  | nil => rfl
  | cons c x ih =>
    simp only [List.mem_cons, not_or] at h
    rw [List.cons_append, lines, if_neg (fun hc => h.1 hc.symm), ih h.2]

theorem headD_lines_append {x : Text} (h : '\n' ∉ x) (y : Text) :
    (lines (x ++ y)).headD [] = x ++ (lines y).headD [] := by
  induction x with
  | nil => rfl
  | cons c x ih =>
    simp only [List.mem_cons, not_or] at h
    rw [List.cons_append, List.cons_append, ← ih h.2, lines, if_neg (fun hc => h.1 hc.symm)]
    cases lines (x ++ y) <;> rfl

/-- A list of lines is what the text that it makes up is cut into. -/
theorem lines_flatten {ls : List Text} (h : AreLines ls) : lines ls.flatten = ls := by
  induction h with
  | nil => rfl
  | last feedless nonempty =>
    rw [List.flatten_cons, List.flatten_nil, List.append_nil, lines_of_not_mem feedless nonempty]
  | cons feedless _ ih => rw [List.flatten_cons, lines_feed feedless, ih]

namespace AreLines

theorem append {a b : List Text} (h : AreLines (a ++ b)) : AreLines a ∧ AreLines b := by
  induction a with
  | nil => exact ⟨.nil, h⟩
  | cons l a ih =>
    rw [List.cons_append] at h
    generalize hls : a ++ b = ls at h
    cases h with
    | last feedless nonempty =>
      obtain ⟨rfl, rfl⟩ := List.append_eq_nil_iff.1 hls
      exact ⟨.last feedless nonempty, .nil⟩
    | cons feedless rest =>
      obtain ⟨ha, hb⟩ := ih (hls ▸ rest)
      exact ⟨.cons feedless ha, hb⟩

theorem take {ls : List Text} (h : AreLines ls) (n : Nat) : AreLines (ls.take n) :=
  (append (b := ls.drop n) (by rwa [List.take_append_drop])).1

theorem drop {ls : List Text} (h : AreLines ls) (n : Nat) : AreLines (ls.drop n) :=
  (append (a := ls.take n) (by rwa [List.take_append_drop])).2

/-- Lines that are left out in between leave a list of lines. -/
theorem sublist {ls kept : List Text} (h : AreLines ls) (hkept : kept.Sublist ls) :
    AreLines kept := by
  induction h generalizing kept with
  | nil =>
    rw [List.sublist_nil.1 hkept]
    exact .nil
  | last feedless nonempty =>
    cases hkept with
    | cons _ hkept =>
      rw [List.sublist_nil.1 hkept]
      exact .nil
    | cons_cons _ hkept =>
      rw [List.sublist_nil.1 hkept]
      exact .last feedless nonempty
  | cons feedless _ ih =>
    cases hkept with
    | cons _ hkept => exact ih hkept
    | cons_cons _ hkept => exact .cons feedless (ih hkept)

/-- The text of some lines is their contents with line feeds between them, and one more at the
end unless the last line lacks it.  That line is not empty, so the text then ends in a character
of its own. -/
theorem flatten_eq {ls : List Text} (h : AreLines ls) (hne : ls ≠ []) :
    (∃ c, ls.flatten.getLast? = some c ∧ c ≠ '\n' ∧
        ls.flatten = join ['\n'] (ls.map chompLine)) ∨
      ls.flatten = join ['\n'] (ls.map chompLine) ++ ['\n'] := by
  induction h with
  | nil => exact absurd rfl hne
  | @last x feedless nonempty =>
    left
    refine ⟨x.getLast nonempty, by simp [List.getLast?_eq_some_getLast nonempty], ?_, ?_⟩
    · intro hx
      exact feedless (hx ▸ List.getLast_mem nonempty)
    · simp [join, chompLine_of_not_mem feedless]
  | @cons x ls feedless rest ih =>
    -- Whether the text ends in a line feed is up to the lines that follow, if there are any.
    cases hls : ls with
    | nil =>
      right
      simp [join, chompLine_feed]
    | cons l more =>
      have hjoin : join ['\n'] (((x ++ ['\n']) :: l :: more).map chompLine) =
          x ++ ['\n'] ++ join ['\n'] ((l :: more).map chompLine) := by
        simp [join, chompLine_feed, List.intercalate]
      rw [hjoin, List.flatten_cons]
      rw [hls] at ih
      rcases ih (by simp) with ⟨c, hl, hc, hf⟩ | hf
      · left
        refine ⟨c, ?_, hc, by rw [hf]⟩
        rw [List.getLast?_append, hl]
        rfl
      · right
        rw [hf, ← List.append_assoc]

end AreLines

/-! ## The only cut -/

/-- A text cut at its line feeds: put together again the lines are the text, none of them is empty,
each but the last ends in a line feed, and none has another one before its end. -/
structure IsCut (t : Text) (ls : List Text) : Prop where
  whole : ls.flatten = t
  nonempty : ∀ l ∈ ls, l ≠ []
  terminated : ∀ l ∈ ls.dropLast, l.getLast? = some '\n'
  feedless : ∀ l ∈ ls, '\n' ∉ l.dropLast

theorem AreLines.isCut {ls : List Text} (h : AreLines ls) : IsCut ls.flatten ls := by
  induction h with
  | nil => exact ⟨rfl, nofun, nofun, nofun⟩
  | @last x feedless nonempty =>
    refine ⟨rfl, by simpa using nonempty, nofun, ?_⟩
    intro l hl hfeed
    obtain rfl := List.mem_singleton.1 hl
    exact feedless ((List.dropLast_sublist _).subset hfeed)
  | @cons x ls feedless rest ih =>
    refine ⟨rfl, ?_, ?_, ?_⟩
    · rw [List.forall_mem_cons]
      exact ⟨by simp, ih.nonempty⟩
    · cases ls with
      | nil => exact nofun
      | cons l more =>
        rw [List.dropLast_cons_cons, List.forall_mem_cons]
        exact ⟨List.getLast?_concat, ih.terminated⟩
    · rw [List.forall_mem_cons, List.dropLast_concat]
      exact ⟨feedless, ih.feedless⟩

/-- A line of a cut is the last one or ends in its only line feed, so the cut is built up line by
line. -/
theorem IsCut.areLines {t : Text} {ls : List Text} (h : IsCut t ls) : AreLines ls := by
  obtain ⟨-, nonempty, terminated, feedless⟩ := h
  induction ls with
  | nil => exact .nil
  | cons l rest ih =>
    rw [List.forall_mem_cons] at nonempty feedless
    have hl : l.dropLast ++ [l.getLast nonempty.1] = l := List.dropLast_concat_getLast nonempty.1
    have hrest : ∀ line ∈ rest.dropLast, line.getLast? = some '\n' := by
      intro line hline
      cases rest with
      | nil => nomatch hline
      | cons _ _ => exact terminated line (List.mem_cons_of_mem l hline)
    have hlines : AreLines rest := ih nonempty.2 hrest feedless.2
    by_cases hc : l.getLast nonempty.1 = '\n'
    · rw [← hl, hc]
      exact .cons feedless.1 hlines
    · cases rest with
      | nil =>
        refine .last ?_ nonempty.1
        rw [← hl]
        simp [feedless.1, Ne.symm hc]
      | cons line more =>
        have hfeed := terminated l List.mem_cons_self
        rw [List.getLast?_eq_some_getLast nonempty.1, Option.some.injEq] at hfeed
        exact absurd hfeed hc

/-- The lines of a text are the only way to cut it at its line feeds.  So a text that is cut after a
line feed has the lines of the one part and then those of the other. -/
theorem lines_unique :
    (∀ t ls, IsCut t ls ↔ ls = lines t) ∧
      ∀ x y : Text, x = [] ∨ x.getLast? = some '\n' → lines (x ++ y) = lines x ++ lines y := by
  refine ⟨fun t ls => ⟨?_, ?_⟩, fun x y h => lines_append h y⟩
  · intro h
    rw [← lines_flatten h.areLines, h.whole]
  · rintro rfl
    have h := (areLines_lines t).isCut
    rwa [flatten_lines] at h

theorem lines_unique_formFeed :
    IsCut "a\x0cb\r\n\n\u2028c".toList ["a\x0cb\r\n".toList, "\n".toList, "\u2028c".toList] ∧
      ("a\x0cb\r\n".toList = [] ∨ "a\x0cb\r\n".toList.getLast? = some '\n') ∧
      lines ("a\x0cb\r\n".toList ++ "\n\u2028c".toList) =
        lines "a\x0cb\r\n".toList ++ lines "\n\u2028c".toList := by
  have hend : "a\x0cb\r\n".toList = [] ∨ "a\x0cb\r\n".toList.getLast? = some '\n' := .inr rfl
  exact ⟨(lines_unique.1 _ _).2 rfl, hend, lines_unique.2 _ _ hend⟩

/-! ## Starts of a text -/

theorem isPrefix_take_flatten (ls : List Text) {j k : Nat} (h : j ≤ k) :
    (ls.take j).flatten <+: (ls.take k).flatten := by
  obtain ⟨more, hmore⟩ := List.take_prefix_take_left (l := ls) h
  exact ⟨more.flatten, by rw [← List.flatten_append, hmore]⟩

/-- A start of a text ends on the line behind as many lines as it has line feeds, and where that
line begins if it is empty or ends with a line feed itself. -/
structure EndsOnLine (ls : List Text) (front : Text) : Prop where
  linesBefore : (ls.take (front.count '\n')).flatten <+: front
  onLine : front <+: (ls.take (front.count '\n' + 1)).flatten
  wholeLines : front = [] ∨ front.getLast? = some '\n' →
    (ls.take (front.count '\n')).flatten = front

theorem endsOnLine_of_not_mem {x front : Text} {ls : List Text} (hfront : front <+: x)
    (hfeed : '\n' ∉ front) : EndsOnLine (x :: ls) front := by
  have hcount : front.count '\n' = 0 := List.count_eq_zero.2 hfeed
  constructor
  · rw [hcount]
    exact List.nil_prefix
  · rw [hcount]
    simpa using hfront
  · rw [hcount]
    rintro (rfl | hlast)
    · rfl
    · exact absurd (List.mem_of_getLast? hlast) hfeed

theorem EndsOnLine.cons {x more : Text} {ls : List Text} (hx : '\n' ∉ x)
    (h : EndsOnLine ls more) : EndsOnLine ((x ++ ['\n']) :: ls) (x ++ ['\n'] ++ more) := by
  have hcount : (x ++ ['\n'] ++ more).count '\n' = more.count '\n' + 1 := by
    have hx : x.count '\n' = 0 := List.count_eq_zero.2 hx
    simp [List.count_append, hx]
  constructor
  · rw [hcount, List.take_succ_cons, List.flatten_cons]
    exact (List.prefix_append_right_inj _).2 h.linesBefore
  · rw [hcount, List.take_succ_cons, List.flatten_cons]
    exact (List.prefix_append_right_inj _).2 h.onLine
  · rw [hcount, List.take_succ_cons, List.flatten_cons]
    intro hlast
    rw [h.wholeLines]
    by_cases hmore : more = []
    · exact .inl hmore
    · obtain ⟨c, hc⟩ := Option.isSome_iff_exists.1 (List.getLast?_isSome.2 hmore)
      rw [List.getLast?_append, hc, Option.some_or] at hlast
      exact .inr (hc.trans (hlast.resolve_left (by simp)))

theorem AreLines.endsOnLine {ls : List Text} (h : AreLines ls) {front : Text}
    (hfront : front <+: ls.flatten) : EndsOnLine ls front := by
  induction h generalizing front with
  | nil =>
    obtain rfl : front = [] := List.prefix_nil.1 hfront
    exact ⟨⟨[], rfl⟩, ⟨[], rfl⟩, fun _ => rfl⟩
  | @last x feedless nonempty =>
    rw [List.flatten_cons, List.flatten_nil, List.append_nil] at hfront
    exact endsOnLine_of_not_mem hfront fun hmem => feedless (hfront.subset hmem)
  | @cons x ls feedless rest ih =>
    rw [List.flatten_cons] at hfront
    rcases Nat.lt_or_ge x.length front.length with hlong | hshort
    · -- The start holds the whole first line, so the rest of it is a start of the other lines.
      have hline : x ++ ['\n'] <+: front := by
        refine List.prefix_of_prefix_length_le (List.prefix_append _ _) hfront ?_
        rw [List.length_append, List.length_singleton]
        exact hlong
      obtain ⟨more, rfl⟩ := hline
      exact (ih ((List.prefix_append_right_inj _).1 hfront)).cons feedless
    · have hx : front <+: x := by
        refine List.prefix_of_prefix_length_le hfront ?_ hshort
        rw [List.append_assoc]
        exact List.prefix_append _ _
      exact endsOnLine_of_not_mem (hx.trans (List.prefix_append _ _))
        fun hmem => feedless (hx.subset hmem)

/-- A character of a text that ends no line stands on the line that the line feeds before it count
up to. -/
theorem between_lines {t front : Text} {c : Char} (h : front ++ [c] <+: t) (hc : c ≠ '\n') :
    ((lines t).take (front.count '\n')).flatten <+: front ∧
      front ++ [c] <+: ((lines t).take (front.count '\n' + 1)).flatten := by
  have hcount : (front ++ [c]).count '\n' = front.count '\n' := by
    rw [List.count_append, List.count_singleton, if_neg (by simpa using hc), Nat.add_zero]
  have hends : ∀ x : Text, x <+: t → EndsOnLine (lines t) x := by
    intro x hx
    refine (areLines_lines t).endsOnLine ?_
    rwa [flatten_lines]
  have honLine := (hends _ h).onLine
  rw [hcount] at honLine
  exact ⟨(hends front ((List.prefix_append _ _).trans h)).linesBefore, honLine⟩

/-- A line that begins behind `front` and ends before `t` does stands in `t`. -/
theorem infix_of_between {ls : List Text} {k : Nat} {raw front t : Text} (hraw : ls[k]? = some raw)
    (hbegin : front <+: (ls.take k).flatten) (hend : (ls.take (k + 1)).flatten <+: front ++ t) :
    raw <:+: t := by
  obtain ⟨gap, hgap⟩ := hbegin
  obtain ⟨rest, hrest⟩ := hend
  rw [List.take_add_one, hraw, Option.toList_some, List.flatten_append, ← hgap,
    List.flatten_singleton, List.append_assoc, List.append_assoc] at hrest
  have ht : gap ++ (raw ++ rest) = t := List.append_cancel_left hrest
  exact ⟨gap, rest, by rw [← ht, List.append_assoc]⟩

/-! ## The terminator at the end -/

theorem dropTerminator_feed (x : Text) : dropTerminator (x ++ ['\n']) = dropReturn x := by
  unfold dropTerminator dropReturn
  rw [List.reverse_append, List.reverse_singleton, List.singleton_append]
  cases hx : x.reverse with
  | nil =>
    rw [List.reverse_eq_nil_iff.1 hx]
    rfl
  | cons c front =>
    have hxc : x = front.reverse ++ [c] := by
      rw [← List.reverse_reverse x, hx, List.reverse_cons]
    by_cases hc : c = '\r'
    · simp [hxc, hc]
    · simp [hxc, hc]

theorem dropTerminator_of_getLast? {x : Text} {c : Char} (h : x.getLast? = some c)
    (hc : c ≠ '\n') : dropTerminator x = dropReturn x := by
  obtain ⟨front, rfl⟩ : ∃ front, x = front ++ [c] := List.getLast?_eq_some_iff.1 h
  unfold dropTerminator dropReturn
  by_cases hr : c = '\r'
  · simp [hr]
  · simp [hc, hr]

/-- The text of some lines without the terminator at its end. -/
theorem dropTerminator_flatten {ls : List Text} (h : AreLines ls) (hne : ls ≠ []) :
    dropTerminator ls.flatten = dropReturn (join ['\n'] (ls.map chompLine)) := by
  rcases h.flatten_eq hne with ⟨c, hl, hc, hf⟩ | hf
  · rw [dropTerminator_of_getLast? hl hc, hf]
  · rw [hf, dropTerminator_feed]

end Text
end ChangePairs
