import ChangePairs.Proofs.Diff.Section

/-!
The lines that open hunks.  A text opens a hunk if its first line does (`opens_first`).  The header
and the ranges of a hunk stand in that line, so the lines that open a hunk decide, one by one and in
order, on what a diff comes to, except for the texts of its hunks (`exists_opensTo`).  A diff whose headers are all read gives one hunk for each
of them, whatever its other lines are (`parse_of_read`).
-/

namespace ChangePairs
namespace Diff

theorem opens_eq_false {a : Char} (h : a ≠ '@') (t : Text) : Header.opens (a :: t) = false := by
  simp [Header.opens, h]

theorem opens_at_eq_false {a : Char} (h : a ≠ '@') (t : Text) :
    Header.opens ('@' :: a :: t) = false := by
  simp [Header.opens, h]

theorem opens_congr (a b c : Char) (t u : Text) :
    Header.opens (a :: b :: c :: t) = Header.opens (a :: b :: c :: u) := by
  by_cases ha : a = '@'
  · by_cases hb : b = '@'
    · rw [ha, hb]
      rfl
    · rw [ha, opens_at_eq_false hb, opens_at_eq_false hb]
  · rw [opens_eq_false ha, opens_eq_false ha]

theorem opens_first {t first : Text} {rest : List Text} (h : Text.lines t = first :: rest) :
    Header.opens first = Header.opens t := by
  have hlines := Text.areLines_lines t
  have hflatten := Text.flatten_lines t
  rw [h] at hlines hflatten
  rw [← hflatten, List.flatten_cons]
  cases hlines with
  | last => simp
  | @cons x _ =>
    -- A line feed among the first two characters opens no hunk, and behind two marks it does.
    match x with
    | [] | [a] => simp [Header.opens]
    | [a, b] | a :: b :: c :: x => exact opens_congr a b _ _ _

/-- What a line that opens a hunk comes to: a hunk with its header and ranges, or the rejection of
the header. -/
inductive OpensTo (line : Text) : Except Rejection Hunk → Prop where
  | hunk {h : Hunk} (header : h.header = Header.ofLine line)
    (read : (Header.read (Header.ofLine line)).run = .ok (.ok (h.old, h.new))) :
    OpensTo line (.ok h)
  | rejection {r : Rejection} (header : r.header = Header.ofLine line)
    (read : (Header.read (Header.ofLine line)).run = .ok (.error r.fault)) :
    OpensTo line (.error r)

theorem Section.opensTo_of_read {s : Section} {r : Except Rejection Hunk}
    (h : s.read = .ok r) : OpensTo s.first r := by
  obtain ⟨x, hx, rfl⟩ := Section.read_eq_ok_iff.1 h
  cases x with
  | ok ranges => exact .hunk rfl hx
  | error fault => exact .rejection rfl hx

theorem exists_opensTo {diff : Text} {parsed : Parsed} (h : parse diff = .ok parsed) :
    ∃ results, List.Forall₂ OpensTo ((Text.lines diff).filter Header.opens) results ∧
      parsed = Parsed.ofResults results := by
  obtain ⟨results, hresults, hparsed⟩ := readSections_eq_ok_iff.1 h
  refine ⟨results, ?_, hparsed⟩
  rw [← sections_map_first, List.forall₂_map_left_iff]
  exact hresults.imp fun s r hr => Section.opensTo_of_read hr

theorem parse_of_read {diff : Text} {ranges : List (LineRange × LineRange)}
    (h : List.Forall₂ (fun l r => (Header.read (Header.ofLine l)).run = .ok (.ok r))
      ((Text.lines diff).filter Header.opens) ranges) :
    ∃ hunks, parse diff = .ok ⟨hunks, []⟩ ∧ hunks.map (fun p => (p.old, p.new)) = ranges := by
  rw [← sections_map_first, List.forall₂_map_left_iff] at h
  unfold parse
  generalize (sections (Text.lines diff)).2 = ss at h
  induction h with
  | nil => exact ⟨[], rfl, rfl⟩
  | @cons s r ss ranges hr _ ih =>
    obtain ⟨hunks, hparse, hranges⟩ := ih
    have hs : s.read = .ok (.ok ⟨Header.ofLine s.first, r.1, r.2, s.text⟩) :=
      Section.read_eq_ok_iff.2 ⟨.ok r, hr, rfl⟩
    refine ⟨_ :: hunks, by rw [readSections, hs, hparse]; rfl, ?_⟩
    rw [List.map_cons, hranges]

end Diff
end ChangePairs
