import ChangePairs.Text.Blank

/-!
Parts of texts.  A line without the blanks at its ends is a part of the line, and a part that
begins with a character which is kept stays a part when other characters are dropped in front.
-/

namespace ChangePairs
namespace Text

theorem occursIn_iff {part t : Text} : occursIn part t = true ↔ part <:+: t := by
  induction t with
  | nil => simp [occursIn]
  | cons c rest ih =>
    rw [occursIn, Bool.or_eq_true, List.isPrefixOf_iff_prefix, ih, List.infix_cons_iff]

theorem isPrefix_dropEnd (p : Char → Bool) (t : Text) : dropEnd p t <+: t := by
  unfold dropEnd
  rw [← List.reverse_suffix, List.reverse_reverse]
  exact List.dropWhile_suffix p

/-- What stands before a character that is kept is kept as well. -/
theorem dropEnd_append {p : Char → Bool} {c : Char} (hc : p c = false) (x y : Text) :
    dropEnd p (x ++ [c] ++ y) = x ++ [c] ++ dropEnd p y := by
  unfold dropEnd
  rw [List.reverse_append, List.reverse_append, List.reverse_singleton, List.singleton_append,
    List.dropWhile_append, List.dropWhile_cons, hc]
  split
  · next h => simp [List.isEmpty_iff.1 h]
  · simp

theorem isInfix_trim (t : Text) : trim t <:+: t :=
  (isPrefix_dropEnd isBlank _).isInfix.trans (List.dropWhile_suffix isBlank).isInfix

/-- A text without the blanks at its ends does not begin with one. -/
theorem isBlank_of_trim_eq_cons {t rest : Text} {c : Char} (h : trim t = c :: rest) :
    isBlank c = false := by
  obtain ⟨more, hmore⟩ := isPrefix_dropEnd isBlank (trimStart t)
  have hstart : trimStart t = c :: (rest ++ more) := by
    rw [← hmore, ← List.cons_append]
    exact congrArg (· ++ more) h
  have hhead := List.head?_dropWhile_not isBlank t
  unfold trimStart at hstart
  rw [hstart] at hhead
  simpa using hhead

theorem infix_dropWhile {p : Char → Bool} {c : Char} {part t : Text} (hc : p c = false)
    (h : c :: part <:+: t) : c :: part <:+: t.dropWhile p := by
  obtain ⟨front, back, rfl⟩ := h
  rw [List.append_assoc, List.dropWhile_append]
  split
  · rw [List.cons_append, List.dropWhile_cons_of_neg (by simp [hc])]
    exact ⟨[], back, rfl⟩
  · exact ⟨front.dropWhile p, back, List.append_assoc _ _ _⟩

end Text
end ChangePairs
