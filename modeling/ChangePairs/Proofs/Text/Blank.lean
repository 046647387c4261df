import ChangePairs.Text.Blank

/-!
Words and the blanks around them.  A run of characters that are not blank is the first word of a
text that goes on with a blank or not at all, and blanks in front of a text have no influence on its
words.  Trimming a word with blanks on both sides leaves the word.
-/

namespace ChangePairs
namespace Text

/-! ## Words -/

theorem words_cons_blank {c : Char} (hc : isBlank c = true) (t : Text) :
    words (c :: t) = words t := by
  simp [words, hc]

theorem words_blanks_append {s : Text} (hs : ∀ c ∈ s, isBlank c = true) (t : Text) :
    words (s ++ t) = words t := by
  induction s with
  | nil => rfl
  | cons c s ih =>
    rw [List.forall_mem_cons] at hs
    rw [List.cons_append, words_cons_blank hs.1, ih hs.2]

/-- A run of characters that are not blank is a word if the text ends behind it or goes on with a
blank. -/
theorem words_word_append {w t : Text} (hw : ∀ c ∈ w, isBlank c = false) (hne : w ≠ [])
    (ht : ∀ c ∈ t.head?, isBlank c = true) : words (w ++ t) = w :: words t := by
  induction w with
  | nil => exact absurd rfl hne
  | cons c w ih =>
    rw [List.forall_mem_cons] at hw
    cases w with
    | nil =>
      cases t with
      | nil => simp [words, hw.1]
      | cons d t =>
        have hd : isBlank d = true := ht d rfl
        simp [words, hw.1, hd]
    | cons d w =>
      have hd : isBlank d = false := hw.2 d List.mem_cons_self
      have ih := ih hw.2 (List.cons_ne_nil d w)
      rw [List.cons_append] at ih
      rw [List.cons_append, List.cons_append, words, ih]
      simp [hw.1, hd]

/-! ## Ends -/

theorem dropWhile_append_of_head? {p : Char → Bool} {lead t : Text}
    (hlead : ∀ c ∈ lead, p c = true) (ht : ∀ c ∈ t.head?, p c = false) :
    (lead ++ t).dropWhile p = t := by
  rw [List.dropWhile_append_of_pos hlead]
  cases t with
  | nil => rfl
  | cons c t =>
    have hc : p c = false := ht c rfl
    exact List.dropWhile_cons_of_neg (by simp [hc])

/-- Blanks around a word are dropped, and nothing else is. -/
theorem trim_padded {w before after : Text} (hw : ∀ c ∈ w, isBlank c = false) (hne : w ≠ [])
    (hbefore : ∀ c ∈ before, isBlank c = true) (hafter : ∀ c ∈ after, isBlank c = true) :
    trim (before ++ w ++ after) = w := by
  have hstart : trimStart (before ++ w ++ after) = w ++ after := by
    rw [List.append_assoc]
    apply dropWhile_append_of_head? hbefore
    intro c hc
    rw [List.head?_append, List.head?_eq_some_head hne, Option.some_or] at hc
    obtain rfl := Option.mem_some.1 hc
    exact hw _ (List.head_mem hne)
  have hend : trimEnd (w ++ after) = w := by
    unfold trimEnd dropEnd
    rw [List.reverse_append, dropWhile_append_of_head?, List.reverse_reverse]
    · simpa using hafter
    · intro c hc
      exact hw c (List.mem_reverse.1 (List.mem_of_mem_head? hc))
  rw [trim, hstart, hend]

end Text
end ChangePairs
