import ChangePairs.Proofs.Diff.Header
import ChangePairs.Proofs.Diff.Section

/-!
Unified diffs as they are written.  `IsUnified before after diff hunks` says that `diff` is a
preamble and the given hunks, and that each hunk tells the truth about both texts: its context and
deleted lines are the lines of its old range, its context and added lines those of its new range.
Lines end at line feeds, and are compared without them.

The main statement is `parse_unified`: every such diff is read, nothing of it is rejected, and
each hunk is read with its ranges and its body lines.
-/

namespace ChangePairs

/-- The one of two things that belongs to a side. -/
def Side.pick {α : Type} (before after : α) : Side → α
  | .before => before
  | .after => after

theorem Side.pick_apply {α : Type} (f : Side → α) (side : Side) :
    side.pick (f .before) (f .after) = f side := by
  cases side <;> rfl

namespace Diff

inductive LineKind where
  | context
  | deleted
  | added
  /-- A remark on the line above it, such as the one on a missing line feed. -/
  | note
deriving DecidableEq, Repr

def LineKind.marker : LineKind → Char
  | .context => ' '
  | .deleted => '-'
  | .added => '+'
  | .note => '\\'

/-- What a line is by its first character.  A line without a marker counts as context. -/
def LineKind.ofText : Text → LineKind
  | '\\' :: _ => .note
  | '-' :: _ => .deleted
  | '+' :: _ => .added
  | _ => .context

/-- A line below a hunk header: its kind, and what stands behind the marker. -/
structure BodyLine where
  kind : LineKind
  content : Text
deriving DecidableEq, Repr

namespace BodyLine

def text (l : BodyLine) : Text := l.kind.marker :: l.content

def ofText (line : Text) : BodyLine := ⟨.ofText line, line.drop 1⟩

theorem ofText_text (l : BodyLine) : ofText l.text = l := by
  obtain ⟨kind, content⟩ := l
  cases kind <;> rfl

def on? (side : Side) (l : BodyLine) : Option Text :=
  match l.kind, side with
  | .context, _ | .deleted, .before | .added, .after => some l.content
  | _, _ => none

end BodyLine

structure UnifiedHunk where
  old : Header.WrittenRange
  new : Header.WrittenRange
  /-- What stands behind the closing marks of the header. -/
  tail : Text
  body : List BodyLine

namespace UnifiedHunk

def range (h : UnifiedHunk) (side : Side) : LineRange := side.pick h.old.range h.new.range

def lines (h : UnifiedHunk) : List Text :=
  Header.written h.old h.new h.tail :: h.body.map BodyLine.text

def sideLines (h : UnifiedHunk) (side : Side) : List Text := h.body.filterMap (BodyLine.on? side)

end UnifiedHunk

/-- The lines of a text whose numbers lie in a range, which may be empty anywhere. -/
structure IsRangeOf (t : Text) (r : LineRange) (ls : List Text) : Prop where
  count : (ls.length : Int) = r.count
  start : 0 < r.count → 1 ≤ r.start
  lines : ((Text.bareLines t).drop (r.start - 1).toNat).take ls.length = ls

def UnifiedHunk.Fits (before after : Text) (h : UnifiedHunk) : Prop :=
  ∀ side : Side, IsRangeOf (side.pick before after) (h.range side) (h.sideLines side)

/-- A unified diff between two texts: lines of which none opens a hunk, and then hunks that fit. -/
structure IsUnified (before after diff : Text) (hunks : List UnifiedHunk) : Prop where
  layout : ∃ pre raw, Text.lines diff = pre ++ raw ∧ (∀ l ∈ pre, Header.opens l = false) ∧
    raw.map Text.chompLine = hunks.flatMap UnifiedHunk.lines
  fits : ∀ h ∈ hunks, h.Fits before after

/-- A diff of one hunk that begins behind its first `k` lines. -/
theorem isUnified_of_drop (k : Nat) {before after diff : Text} {h : UnifiedHunk}
    (hloose : ∀ l ∈ (Text.lines diff).take k, Header.opens l = false)
    (hraw : ((Text.lines diff).drop k).map Text.chompLine = h.lines)
    (hfits : h.Fits before after) : IsUnified before after diff [h] := by
  have hlines : [h].flatMap UnifiedHunk.lines = h.lines := List.flatMap_singleton _ _
  refine ⟨⟨_, _, (List.take_append_drop k _).symm, hloose, hraw.trans hlines.symm⟩, ?_⟩
  intro h' hh
  obtain rfl := List.mem_singleton.1 hh
  exact hfits

/-- A hunk that was read as it is written. -/
structure Reads (h : UnifiedHunk) (p : Hunk) : Prop where
  header : p.header = Header.written h.old h.new (Header.ofLine h.tail)
  range : ∀ side, p.range side = h.range side
  body : p.bodyLines = h.body.map BodyLine.text

/-! ## Sections -/

def IsSectionOf (h : UnifiedHunk) (s : Section) : Prop := s.lines.map Text.chompLine = h.lines

theorem exists_sections {hunks : List UnifiedHunk} {raw : List Text}
    (h : raw.map Text.chompLine = hunks.flatMap UnifiedHunk.lines) :
    ∃ ss : List Section, raw = ss.flatMap Section.lines ∧ List.Forall₂ IsSectionOf hunks ss := by
  induction hunks generalizing raw with
  | nil => exact ⟨[], by simpa using h, .nil⟩
  | cons hunk hunks ih =>
    rw [List.flatMap_cons] at h
    obtain ⟨own, others, rfl, hown, hothers⟩ := List.map_eq_append_iff.1 h
    obtain ⟨first, rest, rfl, -, -⟩ := List.map_eq_cons_iff.1 hown
    obtain ⟨ss, rfl, hss⟩ := ih hothers
    exact ⟨⟨first, rest⟩ :: ss, rfl, .cons hown hss⟩

theorem opens_of_marker {l : Text} {kind : LineKind} {content : Text}
    (h : Text.chompLine l = kind.marker :: content) : Header.opens l = false := by
  have hl : ∃ rest, l = kind.marker :: rest := by
    rcases Text.eq_chompLine_or l with hl | hl
    · exact ⟨content, hl.trans h⟩
    · exact ⟨content ++ ['\n'], hl.trans (by rw [h, List.cons_append])⟩
  obtain ⟨rest, rfl⟩ := hl
  cases kind <;> rfl

theorem IsSectionOf.isProper {h : UnifiedHunk} {s : Section} (hs : IsSectionOf h s) :
    s.IsProper := by
  obtain ⟨hfirst, hrest⟩ := List.cons.inj hs
  constructor
  · rcases Text.eq_chompLine_or s.first with hl | hl
    · rw [hl, hfirst]
      exact Header.opens_written h.old h.new h.tail
    · rw [hl, hfirst]
      exact Header.opens_written h.old h.new (h.tail ++ ['\n'])
  · intro l hl
    have hmem : Text.chompLine l ∈ h.body.map BodyLine.text := hrest ▸ List.mem_map_of_mem hl
    obtain ⟨b, -, hb⟩ := List.mem_map.1 hmem
    exact opens_of_marker hb.symm

theorem isProper_of_mem {hunks : List UnifiedHunk} {ss : List Section}
    (h : List.Forall₂ IsSectionOf hunks ss) : ∀ s ∈ ss, s.IsProper := by
  induction h with
  | nil => simp
  | cons hs _ ih => exact List.forall_mem_cons.2 ⟨hs.isProper, ih⟩

/-! ## Reading -/

/-- The start of a range that holds lines is one that a header may state. -/
theorem UnifiedHunk.Fits.start_le {before after : Text} {h : UnifiedHunk}
    (hfits : h.Fits before after) :
    (0 < h.old.range.count → 1 ≤ h.old.range.start) ∧
      (0 < h.new.range.count → 1 ≤ h.new.range.start) :=
  ⟨(hfits .before).start, (hfits .after).start⟩

/-- The section of a hunk is read as the hunk is written. -/
theorem IsSectionOf.read {before after : Text} {h : UnifiedHunk} {s : Section}
    (hs : IsSectionOf h s) (hfits : h.Fits before after) (hlines : Text.lines s.text = s.lines) :
    ∃ p : Hunk, s.read = .ok (.ok p) ∧ Reads h p := by
  obtain ⟨hfirst, hrest⟩ := List.cons.inj hs
  have hheader : Header.ofLine s.first = Header.written h.old h.new (Header.ofLine h.tail) := by
    rw [← Header.ofLine_chompLine, hfirst, Header.ofLine_written]
  have hread := Header.read_written hfits.start_le.1 hfits.start_le.2 (Header.ofLine h.tail)
  rw [← hheader] at hread
  refine ⟨⟨Header.ofLine s.first, h.old.range, h.new.range, s.text⟩, ?_, ?_⟩
  · exact Section.read_eq_ok_iff.2 ⟨.ok (h.old.range, h.new.range), by rw [hread]; rfl, rfl⟩
  · refine ⟨hheader, fun side => by cases side <;> rfl, ?_⟩
    show ((Text.lines s.text).drop 1).map Text.chompLine = _
    rw [hlines]
    exact hrest

theorem readSections_unified {before after : Text} {hunks : List UnifiedHunk}
    {ss : List Section} (hss : List.Forall₂ IsSectionOf hunks ss)
    (hfits : ∀ h ∈ hunks, h.Fits before after)
    (hlines : ∀ s ∈ ss, Text.lines s.text = s.lines) :
    ∃ ps, readSections ss = .ok ⟨ps, []⟩ ∧ List.Forall₂ Reads hunks ps := by
  induction hss with
  | nil => exact ⟨[], rfl, .nil⟩
  | @cons h s hunks ss hs _ ih =>
    obtain ⟨p, hp, hread⟩ := hs.read (hfits h List.mem_cons_self) (hlines s List.mem_cons_self)
    obtain ⟨ps, hps, hreads⟩ := ih (fun x hx => hfits x (List.mem_cons_of_mem h hx))
      (fun x hx => hlines x (List.mem_cons_of_mem s hx))
    refine ⟨p :: ps, ?_, .cons hread hreads⟩
    rw [readSections, hp, hps]
    rfl

/-- A unified diff is read hunk by hunk, and nothing of it is rejected. -/
theorem parse_unified {before after diff : Text} {hunks : List UnifiedHunk}
    (h : IsUnified before after diff hunks) :
    ∃ ps, parse diff = .ok ⟨ps, []⟩ ∧ List.Forall₂ Reads hunks ps := by
  obtain ⟨pre, raw, hlines, hloose, hraw⟩ := h.layout
  obtain ⟨ss, rfl, hss⟩ := exists_sections hraw
  have hcut := sections_eq_iff.2 ⟨hlines, hloose, isProper_of_mem hss⟩
  have htext : ∀ s ∈ ss, Text.lines s.text = s.lines := by
    intro s hs
    exact lines_text_of_mem_sections (t := diff) (by rwa [hcut])
  obtain ⟨ps, hps, hreads⟩ := readSections_unified hss h.fits htext
  exact ⟨ps, by rw [parse, hcut, hps], hreads⟩

/-! ## A diff of confusing lines

The lines of both texts look like headers, file names and remarks, none of the last lines ends,
and one line ends in a carriage return.  A second hunk has no line on either side. -/

namespace Confusing

def before : Text := "a\r\n-- x\n@@ -1 +1 @@\n\\ end".toList

def after : Text := "a\r\n++ y\n\\ end\nz".toList

def diff : Text :=
  ("--- f\n+++ f\n" ++
    "@@ -1,4 +1,4 @@ main\n a\r\n--- x\n-@@ -1 +1 @@\n-\\ end\n\\ No newline\n" ++
    "+++ y\n+\\ end\n+z\n\\ No newline\n" ++ "@@ -9,0 +0,0 @@\n").toList

def hunk : UnifiedHunk where
  old := ⟨.single '1' rfl, some (.single '4' rfl)⟩
  new := ⟨.single '1' rfl, some (.single '4' rfl)⟩
  tail := " main".toList
  body :=
    [⟨.context, "a\r".toList⟩, ⟨.deleted, "-- x".toList⟩, ⟨.deleted, "@@ -1 +1 @@".toList⟩,
      ⟨.deleted, "\\ end".toList⟩, ⟨.note, " No newline".toList⟩, ⟨.added, "++ y".toList⟩,
      ⟨.added, "\\ end".toList⟩, ⟨.added, "z".toList⟩, ⟨.note, " No newline".toList⟩]

def emptyHunk : UnifiedHunk where
  old := ⟨.single '9' rfl, some (.single '0' rfl)⟩
  new := ⟨.single '0' rfl, some (.single '0' rfl)⟩
  tail := []
  body := []

theorem isUnified : IsUnified before after diff [hunk, emptyHunk] := by
  refine ⟨⟨(Text.lines diff).take 2, (Text.lines diff).drop 2,
    (List.take_append_drop 2 _).symm, by decide +kernel, by decide +kernel⟩, ?_⟩
  intro h hh side
  simp only [List.mem_cons, List.not_mem_nil, or_false] at hh
  rcases hh with rfl | rfl
  · cases side <;> exact ⟨rfl, by decide, rfl⟩
  · cases side <;> exact ⟨rfl, by decide, rfl⟩

end Confusing

end Diff
end ChangePairs
