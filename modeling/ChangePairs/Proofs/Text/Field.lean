import ChangePairs.Text.Basic

/-!
Fields of a text.  A text is its fields with the separator between each two of them, and fields
without a separator in them are read back from the text that they make up.
-/

namespace ChangePairs
namespace Text

/-- A reader that stops at a separator does not stop in a text without one. -/
theorem decide_ne_of_not_mem {separator : Char} {t : Text} (h : separator ∉ t) :
    ∀ c ∈ t, decide (c ≠ separator) = true := by
  intro c hc
  rw [decide_eq_true_iff]
  rintro rfl
  exact h hc

theorem fields_eq_splitOn (separator : Char) (t : Text) :
    fields separator t = t.splitOn separator := by
  unfold List.splitOn
  induction t with
  | nil => rfl
  | cons c rest ih =>
    rw [fields, List.splitOnP_cons_eq_if_modifyHead, ← ih]
    by_cases hc : c = separator
    · simp [hc]
    · obtain ⟨piece, more, hfields⟩ := List.exists_cons_of_ne_nil (fields_ne_nil separator rest)
      simp [hc, hfields]

theorem join_fields (separator : Char) (t : Text) : join [separator] (fields separator t) = t := by
  rw [fields_eq_splitOn]
  exact List.intercalate_splitOn separator

theorem fields_join {separator : Char} {pieces : List Text}
    (h : ∀ piece ∈ pieces, separator ∉ piece) (hne : pieces ≠ []) :
    fields separator (join [separator] pieces) = pieces := by
  rw [fields_eq_splitOn]
  exact List.splitOn_intercalate separator h hne

theorem not_mem_of_mem_fields {separator : Char} {t piece : Text}
    (h : piece ∈ fields separator t) : separator ∉ piece := by
  induction t generalizing piece with
  | nil =>
    obtain rfl := List.mem_singleton.1 h
    exact List.not_mem_nil
  | cons c rest ih =>
    rw [fields] at h
    by_cases hc : c = separator
    · rw [if_pos hc] at h
      rcases List.mem_cons.1 h with rfl | h
      · exact List.not_mem_nil
      · exact ih h
    · obtain ⟨first, more, hfields⟩ := List.exists_cons_of_ne_nil (fields_ne_nil separator rest)
      rw [if_neg hc, hfields] at h
      rw [hfields] at ih
      rcases List.mem_cons.1 h with rfl | h
      · have hfirst := ih List.mem_cons_self
        simpa [Ne.symm hc] using hfirst
      · exact ih (List.mem_cons_of_mem first h)

end Text
end ChangePairs
