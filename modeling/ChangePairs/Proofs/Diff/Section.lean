import Mathlib.Data.List.Forall2
import ChangePairs.Diff.Parse
import ChangePairs.Proofs.Failure
import ChangePairs.Proofs.Text.Line

/-!
The sections of a diff.  `sections_eq_iff` says that the lines which open a hunk cut a list of
lines in one way only: a preamble without such a line, and sections that each begin with one and
hold no other.  `readSections_eq_ok_iff` says that a section comes to one result, its hunk or the
rejection of its header, and that the results stay in order.

The main statement, `parse_partition`, says what becomes of each piece of a diff: there is one way
to cut it into a preamble and segments, every segment is the whole text of one hunk or its header
is rejected, and no hunk holds anything else.
-/

namespace ChangePairs
namespace Diff

namespace Section

def lines (s : Section) : List Text := s.first :: s.rest

/-- A section opens a hunk with its first line and nowhere else. -/
structure IsProper (s : Section) : Prop where
  opens : Header.opens s.first = true
  closed : ∀ l ∈ s.rest, Header.opens l = false

theorem text_eq (s : Section) : s.text = s.lines.flatten := by
  rw [lines, List.flatten_cons, text]

end Section

/-! ## Cutting -/

theorem sections_loose_append {pre : List Text} (h : ∀ l ∈ pre, Header.opens l = false)
    (ls : List Text) :
    sections (pre ++ ls) = (pre ++ (sections ls).1, (sections ls).2) := by
  induction pre with
  | nil => rfl
  | cons l pre ih =>
    rw [List.cons_append, sections, ih (fun x hx => h x (List.mem_cons_of_mem l hx))]
    simp [h l List.mem_cons_self]

theorem sections_flatMap {found : List Section} (h : ∀ s ∈ found, s.IsProper) :
    sections (found.flatMap Section.lines) = ([], found) := by
  induction found with
  | nil => rfl
  | cons s found ih =>
    have hs := h s List.mem_cons_self
    rw [List.flatMap_cons, Section.lines, List.cons_append, sections,
      sections_loose_append hs.closed, ih (fun x hx => h x (List.mem_cons_of_mem s hx))]
    simp [hs.opens]

/-- There is one way to cut lines into a preamble and sections. -/
theorem sections_eq_iff {ls pre : List Text} {found : List Section} :
    sections ls = (pre, found) ↔
      ls = pre ++ found.flatMap Section.lines ∧ (∀ l ∈ pre, Header.opens l = false) ∧
        ∀ s ∈ found, s.IsProper := by
  constructor
  · intro h
    induction ls generalizing pre found with
    | nil =>
      rw [sections, Prod.mk.injEq] at h
      obtain ⟨rfl, rfl⟩ := h
      simp
    | cons l ls ih =>
      obtain ⟨hls, hpre, hfound⟩ := ih rfl
      rw [sections] at h
      -- The lines before the next section are the rest of this one if the line opens a hunk.
      by_cases ho : Header.opens l = true
      · simp only [ho, if_true, Prod.mk.injEq] at h
        obtain ⟨rfl, rfl⟩ := h
        refine ⟨?_, by simp, ?_⟩
        · rw [List.nil_append, List.flatMap_cons, Section.lines, List.cons_append, ← hls]
        · intro s hs
          rcases List.mem_cons.1 hs with rfl | hs
          · exact ⟨ho, hpre⟩
          · exact hfound s hs
      · simp only [ho, Bool.false_eq_true, if_false, Prod.mk.injEq] at h
        obtain ⟨rfl, rfl⟩ := h
        refine ⟨by rw [List.cons_append, ← hls], ?_, hfound⟩
        intro x hx
        rcases List.mem_cons.1 hx with rfl | hx
        · simpa using ho
        · exact hpre x hx
  · rintro ⟨rfl, hpre, hfound⟩
    rw [sections_loose_append hpre, sections_flatMap hfound, List.append_nil]

theorem sections_spec (ls : List Text) :
    ls = (sections ls).1 ++ (sections ls).2.flatMap Section.lines ∧
      (∀ l ∈ (sections ls).1, Header.opens l = false) ∧ ∀ s ∈ (sections ls).2, s.IsProper :=
  sections_eq_iff.1 rfl

/-- Every line that opens a hunk begins a section. -/
theorem sections_map_first (ls : List Text) :
    (sections ls).2.map Section.first = ls.filter Header.opens := by
  induction ls with
  | nil => rfl
  | cons l ls ih =>
    rw [sections, List.filter_cons]
    by_cases ho : Header.opens l = true
    · simp [ho, ih]
    · simp [ho, ih]

/-! ## Reading -/

def rejection? : Except Rejection Hunk → Option Rejection
  | .ok _ => none
  | .error r => some r

def Parsed.ofResults (results : List (Except Rejection Hunk)) : Parsed :=
  ⟨results.filterMap Except.toOption, results.filterMap rejection?⟩

theorem Parsed.cons_ofResults (r : Except Rejection Hunk) (rs : List (Except Rejection Hunk)) :
    (Parsed.ofResults rs).cons r = Parsed.ofResults (r :: rs) := by
  cases r <;> rfl

theorem Parsed.length_ofResults (results : List (Except Rejection Hunk)) :
    (Parsed.ofResults results).hunks.length + (Parsed.ofResults results).rejections.length =
      results.length := by
  induction results with
  | nil => rfl
  | cons r rs ih =>
    rw [← Parsed.cons_ofResults, List.length_cons, ← ih]
    cases r with
    | ok hunk =>
      simp only [Parsed.cons, List.length_cons]
      omega
    | error r =>
      simp only [Parsed.cons, List.length_cons]
      omega

/-- Each section comes to one result, and the results stay in order. -/
theorem readSections_eq_ok_iff {ss : List Section} {parsed : Parsed} :
    readSections ss = .ok parsed ↔
      ∃ results, List.Forall₂ (fun s r => Section.read s = .ok r) ss results ∧
        parsed = Parsed.ofResults results := by
  induction ss generalizing parsed with
  | nil =>
    constructor
    · intro h
      exact ⟨[], .nil, (Except.ok.inj h).symm⟩
    · rintro ⟨results, hr, rfl⟩
      cases hr
      rfl
  | cons s ss ih =>
    constructor
    · intro h
      rw [readSections] at h
      obtain ⟨r, hs, h⟩ := bind_eq_ok_iff.1 h
      obtain ⟨rest, hss, h⟩ := bind_eq_ok_iff.1 h
      obtain ⟨rs, hrs, hrest⟩ := ih.1 hss
      refine ⟨r :: rs, .cons hs hrs, ?_⟩
      rw [← Parsed.cons_ofResults, ← hrest]
      exact (Except.ok.inj h).symm
    · rintro ⟨results, hr, rfl⟩
      cases hr with
      | @cons _ r _ rs hs hrs =>
        rw [readSections, hs, ih.2 ⟨rs, hrs, rfl⟩, ← Parsed.cons_ofResults]
        rfl

def Section.result (s : Section) :
    Except Header.Fault (LineRange × LineRange) → Except Rejection Hunk
  | .ok (old, new) => .ok ⟨Header.ofLine s.first, old, new, s.text⟩
  | .error fault => .error ⟨Header.ofLine s.first, fault⟩

theorem Section.read_eq (s : Section) :
    s.read = (Header.read (Header.ofLine s.first)).run.map s.result := by
  unfold Section.read
  dsimp only
  cases (Header.read (Header.ofLine s.first)).run with
  | error e => rfl
  | ok result => cases result <;> rfl

theorem Section.read_eq_ok_iff {s : Section} {r : Except Rejection Hunk} :
    s.read = .ok r ↔
      ∃ x, (Header.read (Header.ofLine s.first)).run = .ok x ∧ s.result x = r := by
  rw [Section.read_eq, map_eq_ok_iff]

def rejectionOf? (line : Text) : Option Rejection :=
  match (Header.read (Header.ofLine line)).run with
  | .ok (.error fault) => some ⟨Header.ofLine line, fault⟩
  | _ => none

/-- The rejected headers of a diff in the order of its lines. -/
def rejectedHeaders (diff : Text) : List Rejection :=
  ((Text.lines diff).filter Header.opens).filterMap rejectionOf?

theorem Section.rejection?_of_read {s : Section} {r : Except Rejection Hunk}
    (h : s.read = .ok r) : rejection? r = rejectionOf? s.first := by
  obtain ⟨x, hx, rfl⟩ := Section.read_eq_ok_iff.1 h
  unfold rejectionOf?
  rw [hx]
  cases x <;> rfl

theorem filterMap_rejection? {ss : List Section} {results : List (Except Rejection Hunk)}
    (h : List.Forall₂ (fun s r => Section.read s = .ok r) ss results) :
    results.filterMap rejection? = (ss.map Section.first).filterMap rejectionOf? := by
  induction h with
  | nil => rfl
  | cons hs _ ih =>
    rw [List.map_cons, List.filterMap_cons, List.filterMap_cons, ih, Section.rejection?_of_read hs]

theorem rejections_of_parse {diff : Text} {parsed : Parsed} (h : parse diff = .ok parsed) :
    parsed.rejections = rejectedHeaders diff := by
  obtain ⟨results, hresults, rfl⟩ := readSections_eq_ok_iff.1 h
  unfold rejectedHeaders
  rw [← sections_map_first]
  exact filterMap_rejection? hresults

/-! ## Segments

A segment is the text of a section.  Since the lines of a text can be put back together, what has
been said of sections holds of segments. -/

/-- A cut of a diff into pieces of whole lines: a preamble in which no line opens a hunk, and
segments that each open one with their first line and nowhere else. -/
structure IsCut (diff pre : Text) (segments : List Text) : Prop where
  lines_eq : Text.lines diff = Text.lines pre ++ segments.flatMap Text.lines
  loose : ∀ l ∈ Text.lines pre, Header.opens l = false
  proper : ∀ t ∈ segments, ∃ s : Section, Text.lines t = s.lines ∧ s.IsProper

/-- The header of a segment: its first line without the line end. -/
def headerOf (segment : Text) : Text := Header.ofLine ((Text.lines segment).headD [])

/-- A segment comes to a hunk with its header and all of its text, or to the rejection of its
header. -/
def Yields (segment : Text) : Except Rejection Hunk → Prop
  | .ok hunk =>
    (Header.read (headerOf segment)).run = .ok (.ok (hunk.old, hunk.new)) ∧
      hunk.header = headerOf segment ∧ hunk.text = segment
  | .error rejection =>
    (Header.read (headerOf segment)).run = .ok (.error rejection.fault) ∧
      rejection.header = headerOf segment

def isAccepted (segment : Text) : Bool :=
  match (Header.read (headerOf segment)).run with
  | .ok (.ok _) => true
  | _ => false

theorem flatten_flatMap_lines (ts : List Text) : (ts.flatMap Text.lines).flatten = ts.flatten := by
  induction ts with
  | nil => rfl
  | cons t ts ih =>
    rw [List.flatMap_cons, List.flatten_append, Text.flatten_lines, ih, List.flatten_cons]

theorem IsCut.text_eq {diff pre : Text} {segments : List Text} (h : IsCut diff pre segments) :
    diff = pre ++ segments.flatten := by
  rw [← Text.flatten_lines diff, h.lines_eq, List.flatten_append, Text.flatten_lines,
    flatten_flatMap_lines]

def sectionOf (segment : Text) : Section :=
  ⟨(Text.lines segment).headD [], (Text.lines segment).drop 1⟩

theorem sectionOf_eq {segment : Text} {s : Section} (h : Text.lines segment = s.lines) :
    sectionOf segment = s := by
  rw [sectionOf, h]
  rfl

/-- The pieces of a cut are what the diff's lines are cut into. -/
theorem IsCut.sections_eq {diff pre : Text} {segments : List Text} (h : IsCut diff pre segments) :
    sections (Text.lines diff) = (Text.lines pre, segments.map sectionOf) := by
  have hlines : ∀ ts : List Text, (∀ t ∈ ts, ∃ s : Section, Text.lines t = s.lines ∧ s.IsProper) →
      ts.flatMap Text.lines = (ts.map sectionOf).flatMap Section.lines := by
    intro ts hts
    rw [List.flatMap_map]
    refine List.flatMap_congr fun t ht => ?_
    obtain ⟨s, hs, _⟩ := hts t ht
    rw [sectionOf_eq hs, hs]
  refine sections_eq_iff.2 ⟨by rw [h.lines_eq, hlines segments h.proper], h.loose, ?_⟩
  intro s hs
  obtain ⟨t, ht, rfl⟩ := List.mem_map.1 hs
  obtain ⟨s, hts, hproper⟩ := h.proper t ht
  rwa [sectionOf_eq hts]

theorem areLines_sections (t : Text) :
    Text.AreLines (sections (Text.lines t)).1 ∧
      Text.AreLines ((sections (Text.lines t)).2.flatMap Section.lines) := by
  have hall := Text.areLines_lines t
  rw [(sections_spec (Text.lines t)).1] at hall
  exact hall.append

/-- A section that is cut out of a text has its own lines as the lines of its text. -/
theorem lines_text_of_mem_sections {t : Text} {s : Section} (h : s ∈ (sections (Text.lines t)).2) :
    Text.lines s.text = s.lines := by
  have hfound := (areLines_sections t).2
  obtain ⟨front, back, hfb⟩ := List.append_of_mem h
  rw [hfb, List.flatMap_append, List.flatMap_cons] at hfound
  rw [Section.text_eq, Text.lines_flatten hfound.append.2.append.1]

/-- The sections of a diff give the one cut of it. -/
theorem isCut_sections (diff : Text) :
    IsCut diff (sections (Text.lines diff)).1.flatten
      ((sections (Text.lines diff)).2.map Section.text) := by
  obtain ⟨hls, hloose, hproper⟩ := sections_spec (Text.lines diff)
  have hpre := Text.lines_flatten (areLines_sections diff).1
  refine ⟨?_, by rwa [hpre], ?_⟩
  · rw [hpre, List.flatMap_map,
      List.flatMap_congr fun s hs => lines_text_of_mem_sections (t := diff) hs]
    exact hls
  · intro t ht
    obtain ⟨s, hs, rfl⟩ := List.mem_map.1 ht
    exact ⟨s, lines_text_of_mem_sections hs, hproper s hs⟩

theorem IsCut.unique {diff pre pre' : Text} {segments segments' : List Text}
    (h : IsCut diff pre segments) (h' : IsCut diff pre' segments') :
    pre' = pre ∧ segments' = segments := by
  have heq := h'.sections_eq.symm.trans h.sections_eq
  rw [Prod.mk.injEq] at heq
  obtain ⟨hpre, hsegments⟩ := heq
  constructor
  · rw [← Text.flatten_lines pre', hpre, Text.flatten_lines]
  · -- The section of a segment gives the segment back.
    have htext : ∀ ts : List Text, (∀ t ∈ ts, ∃ s : Section, Text.lines t = s.lines ∧ s.IsProper) →
        (ts.map sectionOf).map Section.text = ts := by
      intro ts hts
      rw [List.map_map, List.map_congr_left (g := id), List.map_id]
      intro t ht
      obtain ⟨s, hs, _⟩ := hts t ht
      rw [Function.comp_apply, sectionOf_eq hs, Section.text_eq, ← hs, Text.flatten_lines, id]
    rw [← htext segments' h'.proper, hsegments, htext segments h.proper]

theorem Section.yields_of_read {s : Section} {r : Except Rejection Hunk}
    (hlines : Text.lines s.text = s.lines) (h : s.read = .ok r) : Yields s.text r := by
  have hheader : headerOf s.text = Header.ofLine s.first := by
    rw [headerOf, hlines]
    rfl
  obtain ⟨x, hx, rfl⟩ := Section.read_eq_ok_iff.1 h
  rw [← hheader] at hx
  cases x with
  | ok ranges => exact ⟨hx, hheader.symm, rfl⟩
  | error fault => exact ⟨hx, hheader.symm⟩

theorem map_text_of_yields {segments : List Text} {results : List (Except Rejection Hunk)}
    (h : List.Forall₂ Yields segments results) :
    (Parsed.ofResults results).hunks.map Hunk.text = segments.filter isAccepted := by
  induction h with
  | nil => rfl
  | @cons t r ts rs htr _ ih =>
    rw [← Parsed.cons_ofResults, List.filter_cons, ← ih]
    cases r with
    | ok hunk =>
      obtain ⟨hread, -, htext⟩ := htr
      simp [isAccepted, hread, Parsed.cons, htext]
    | error rejection =>
      obtain ⟨hread, -⟩ := htr
      simp [isAccepted, hread, Parsed.cons]

/-- What a diff is cut into and what becomes of the pieces.  The cut is the only one, every segment
comes to one result, the hunks and the rejections are the results in the order of the text, and
the hunks hold the accepted segments, character for character, and nothing else. -/
structure IsPartition (diff : Text) (parsed : Parsed) (pre : Text) (segments : List Text)
    (results : List (Except Rejection Hunk)) : Prop where
  cut : IsCut diff pre segments
  text : diff = pre ++ segments.flatten
  unique : ∀ pre' segments', IsCut diff pre' segments' → pre' = pre ∧ segments' = segments
  yields : List.Forall₂ Yields segments results
  hunks : parsed.hunks = results.filterMap Except.toOption
  rejections : parsed.rejections = results.filterMap rejection?
  length : parsed.hunks.length + parsed.rejections.length = segments.length
  accepted : parsed.hunks.map Hunk.text = segments.filter isAccepted

theorem parse_partition {diff : Text} {parsed : Parsed} (h : parse diff = .ok parsed) :
    ∃ pre segments results, IsPartition diff parsed pre segments results := by
  obtain ⟨results, hresults, rfl⟩ := readSections_eq_ok_iff.1 h
  have hcut := isCut_sections diff
  have hyields : List.Forall₂ Yields ((sections (Text.lines diff)).2.map Section.text) results := by
    have hlines : ∀ s ∈ (sections (Text.lines diff)).2, Text.lines s.text = s.lines :=
      fun s hs => lines_text_of_mem_sections hs
    rw [List.forall₂_map_left_iff]
    exact ((List.forall₂_and_left _ _).2 ⟨hlines, hresults⟩).imp
      fun s r hsr => Section.yields_of_read hsr.1 hsr.2
  refine ⟨_, _, results, hcut, hcut.text_eq, fun _ _ => hcut.unique, hyields, rfl, rfl, ?_,
    map_text_of_yields hyields⟩
  rw [Parsed.length_ofResults, hyields.length_eq]

/-- A bad header between two good ones, and no line feed at the end. -/
theorem parse_partition_interleaved :
    parse "--- f\n@@ -1 +1 @@\n-a\n+b\n@@ -x +1 @@\n-q\n@@ -3,0 +4 @@ f\n+c".toList =
        .ok ⟨[⟨"@@ -1 +1 @@".toList, ⟨1, 1⟩, ⟨1, 1⟩, "@@ -1 +1 @@\n-a\n+b\n".toList⟩,
          ⟨"@@ -3,0 +4 @@ f".toList, ⟨3, 0⟩, ⟨4, 1⟩, "@@ -3,0 +4 @@ f\n+c".toList⟩],
          [⟨"@@ -x +1 @@".toList, .nonNumeric "x".toList⟩]⟩ ∧
      ∃ pre segments results, IsPartition
        "--- f\n@@ -1 +1 @@\n-a\n+b\n@@ -x +1 @@\n-q\n@@ -3,0 +4 @@ f\n+c".toList
        ⟨[⟨"@@ -1 +1 @@".toList, ⟨1, 1⟩, ⟨1, 1⟩, "@@ -1 +1 @@\n-a\n+b\n".toList⟩,
          ⟨"@@ -3,0 +4 @@ f".toList, ⟨3, 0⟩, ⟨4, 1⟩, "@@ -3,0 +4 @@ f\n+c".toList⟩],
          [⟨"@@ -x +1 @@".toList, .nonNumeric "x".toList⟩]⟩ pre segments results :=
  ⟨rfl, parse_partition rfl⟩

end Diff
end ChangePairs
