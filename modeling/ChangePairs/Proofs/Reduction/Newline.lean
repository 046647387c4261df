import ChangePairs.Proofs.Diff.Opening
import ChangePairs.Proofs.Reduction.Hunks
import ChangePairs.Proofs.Snapshot.Slicing
import ChangePairs.Proofs.Text.Newline

/-!
Reducing a file when all its line ends were turned into line feeds, in the diff as well as in both
versions.  The ranges of the diff still count the lines as they were.  So they mean the same lines
as long as these keep their numbers, and the diff is still read as it is written as long as no
piece of a line opens a hunk that the line did not open (`KeepsNumbers`).

The main statement is `byHunks_unifyNewlines`: the file then gives the pairs that are written in
the diff, with their line ends turned into line feeds.
-/

namespace ChangePairs

def SnippetPair.unifyNewlines (p : SnippetPair) : SnippetPair :=
  ⟨Text.unifyNewlines p.before, Text.unifyNewlines p.after⟩

/-! ## Ranges -/

namespace Snapshot

open Diff (IsRangeOf)

theorem Cuts.unifyNewlines {t u : Text} {r : LineRange} (h : Cuts (Text.lines t) r u)
    (hplain : 0 < r.count → ∀ line ∈ (Text.lines t).take r.stop.toNat, Text.IsPlain line) :
    Cuts (Text.lines (Text.unifyNewlines t)) r (Text.unifyNewlines u) := by
  cases h with
  | empty count => exact .empty count
  | full count start stop =>
    have htake := (Text.take_lines_unifyNewlines_iff t _).2 (hplain count)
    have hstop : r.stop = r.start + r.count - 1 := rfl
    have hsum : (r.start - 1).toNat + r.count.toNat = r.stop.toNat := by omega
    have hcut : ((Text.lines (Text.unifyNewlines t)).drop (r.start - 1).toNat).take r.count.toNat =
        (((Text.lines t).drop (r.start - 1).toNat).take r.count.toNat).map
          Text.unifyNewlines := by
      rw [List.take_drop, List.take_drop, hsum, htake, List.map_drop]
    have hlength := congrArg List.length htake
    rw [List.length_map, List.length_take, List.length_take] at hlength
    have hlines := ((Text.areLines_lines t).drop (r.start - 1).toNat).take r.count.toNat
    rw [← Text.dropTerminator_unifyNewlines, ← Text.flatten_map_unifyNewlines hlines, ← hcut]
    exact .full count start (by omega)

theorem take?_unifyNewlines {t : Text} {r : LineRange} {ls : List Text} (h : IsRangeOf t r ls)
    (hplain : 0 < r.count → ∀ line ∈ (Text.lines t).take r.stop.toNat, Text.IsPlain line) :
    take? (Text.lines (Text.unifyNewlines t)) r =
      some (Text.unifyNewlines (Text.dropReturn (Text.join ['\n'] ls))) := by
  have hcount : 0 ≤ r.count := by
    have hlength := h.count
    omega
  rw [take?_eq_some_iff hcount]
  exact (cuts_of_take? hcount (take?_of_isRangeOf h)).unifyNewlines hplain

end Snapshot

/-! ## Lines that open hunks -/

namespace Diff

open Text (unifyNewlines)

/-- A blank that is turned into a line feed is still a blank. -/
theorem opens_unifyNewlines (t : Text) : Header.opens (unifyNewlines t) = Header.opens t := by
  have hat : ∀ c : Char, c ≠ '@' → (if c = '\r' then '\n' else c) ≠ '@' := by
    intro c hc
    split
    · decide
    · exact hc
  match t with
  | [] => rfl
  | a :: t =>
    obtain ⟨u, hu⟩ := Text.exists_unifyNewlines_cons a t
    by_cases ha : a = '@'
    · subst ha
      rw [Text.unifyNewlines_cons (by decide)]
      match t with
      | [] => rfl
      | b :: t =>
        obtain ⟨u, hu⟩ := Text.exists_unifyNewlines_cons b t
        by_cases hb : b = '@'
        · subst hb
          rw [Text.unifyNewlines_cons (by decide)]
          match t with
          | [] => rfl
          | c :: t =>
            obtain ⟨u, hu⟩ := Text.exists_unifyNewlines_cons c t
            rw [hu]
            show Text.isBlank _ = Text.isBlank c
            split
            · next hc => rw [hc]; rfl
            · rfl
        · rw [hu, opens_at_eq_false hb, opens_at_eq_false (hat b hb)]
    · rw [hu, opens_eq_false ha, opens_eq_false (hat a ha)]

/-- The headers of a unified diff stand in the lines that open hunks. -/
theorem opening_lines_unified {before after diff : Text} {hunks : List UnifiedHunk}
    (h : IsUnified before after diff hunks) :
    List.Forall₂ (fun h l => Text.chompLine l = Header.written h.old h.new h.tail) hunks
      ((Text.lines diff).filter Header.opens) := by
  obtain ⟨pre, raw, hlines, hloose, hraw⟩ := h.layout
  obtain ⟨ss, rfl, hss⟩ := exists_sections hraw
  have hcut := sections_eq_iff.2 ⟨hlines, hloose, isProper_of_mem hss⟩
  rw [← sections_map_first, hcut, List.forall₂_map_right_iff]
  exact hss.imp fun _ _ hs => (List.cons.inj hs).1

def firstPiece (line : Text) : Text := (Text.lines (unifyNewlines line)).headD []

theorem filter_opens_pieces {ls : List Text}
    (h : ∀ line ∈ ls, ∀ piece ∈ (Text.lines (unifyNewlines line)).tail,
      Header.opens piece = false) (hne : ∀ line ∈ ls, line ≠ []) :
    (ls.flatMap fun line => Text.lines (unifyNewlines line)).filter Header.opens =
      (ls.filter Header.opens).map firstPiece := by
  induction ls with
  | nil => rfl
  | cons line ls ih =>
    have ih := ih (fun l hl => h l (List.mem_cons_of_mem line hl))
      (fun l hl => hne l (List.mem_cons_of_mem line hl))
    have hline := h line List.mem_cons_self
    have hpieces := Text.unifyNewlines_ne_nil (hne line List.mem_cons_self)
    obtain ⟨first, rest, hfirst⟩ := List.exists_cons_of_ne_nil (mt Text.lines_eq_nil_iff.1 hpieces)
    have hopens : Header.opens first = Header.opens line := by
      rw [opens_first hfirst, opens_unifyNewlines]
    have hpiece : firstPiece line = first := by
      unfold firstPiece
      rw [hfirst]
      rfl
    have hrest : rest.filter Header.opens = [] := by
      rw [hfirst] at hline
      exact List.filter_eq_nil_iff.2 fun piece hmem => by simp [hline piece hmem]
    rw [List.flatMap_cons, List.filter_append, ih, hfirst, List.filter_cons, List.filter_cons,
      hopens, hrest]
    cases Header.opens line with
    | true => simp [hpiece]
    | false => simp

/-- A header that is written is read all the same, whatever becomes of the text behind it. -/
theorem read_firstPiece {line : Text} {old new : Header.WrittenRange} {tail : Text}
    (hline : Text.chompLine line = Header.written old new tail)
    (hold : 0 < old.range.count → 1 ≤ old.range.start)
    (hnew : 0 < new.range.count → 1 ≤ new.range.start) :
    (Header.read (Header.ofLine (firstPiece line))).run = .ok (.ok (old.range, new.range)) := by
  have hfirst : ∀ t, firstPiece (Header.written old new t) =
      Header.written old new ((Text.lines (unifyNewlines t)).headD []) := by
    intro t
    have hreturn : '\r' ∉ Header.written old new [] :=
      Header.not_mem_written rfl (by decide) List.not_mem_nil
    have hfeed : '\n' ∉ Header.written old new [] :=
      Header.not_mem_written rfl (by decide) List.not_mem_nil
    have happend : ∀ more, Header.written old new more = Header.written old new [] ++ more :=
      fun more => (Header.written_append old new [] more).symm
    unfold firstPiece
    rw [happend t, Text.unifyNewlines_append_of_not_mem hreturn, Text.headD_lines_append hfeed,
      ← happend]
  obtain ⟨more, hmore⟩ : ∃ more, firstPiece line = Header.written old new more := by
    rcases Text.eq_chompLine_or line with hl | hl
    · rw [hl, hline]
      exact ⟨_, hfirst tail⟩
    · rw [hl, hline, Header.written_append]
      exact ⟨_, hfirst _⟩
  rw [hmore, Header.ofLine_written, Header.read_written hold hnew]
  rfl

theorem parse_unifyNewlines {before after diff : Text} {hunks : List UnifiedHunk}
    (h : IsUnified before after diff hunks)
    (hopens : ∀ line ∈ Text.lines diff, ∀ piece ∈ (Text.lines (unifyNewlines line)).tail,
      Header.opens piece = false) :
    ∃ ps, parse (unifyNewlines diff) = .ok ⟨ps, []⟩ ∧
      ps.map (fun p => (p.old, p.new)) = hunks.map fun h => (h.old.range, h.new.range) := by
  refine parse_of_read ?_
  have hlines := Text.lines_unifyNewlines (Text.areLines_lines diff)
  rw [Text.flatten_lines] at hlines
  rw [hlines, filter_opens_pieces hopens fun _ hline => Text.ne_nil_of_mem_lines hline,
    List.forall₂_map_left_iff, List.forall₂_map_right_iff]
  refine (((List.forall₂_and_left _ _).2 ⟨h.fits, opening_lines_unified h⟩).imp ?_).flip
  rintro hunk line ⟨hfits, hline⟩
  exact read_firstPiece hline hfits.start_le.1 hfits.start_le.2

end Diff

/-! ## The outcome -/

namespace Reduction

open Diff (IsUnified UnifiedHunk)
open Text (unifyNewlines)

/-- Every line down to the end of a range is plain, and no line of the diff comes apart into one
that opens a hunk. -/
structure KeepsNumbers (before after diff : Text) (hunks : List UnifiedHunk) : Prop where
  plain : ∀ h ∈ hunks, ∀ side : Side, 0 < (h.range side).count →
    ∀ line ∈ (Text.lines (side.pick before after)).take (h.range side).stop.toNat,
      Text.IsPlain line
  opens : ∀ line ∈ Text.lines diff, ∀ piece ∈ (Text.lines (unifyNewlines line)).tail,
    Header.opens piece = false

variable {before after diff : Text} {hunks : List UnifiedHunk}

theorem sliceLines_unifyNewlines (hunified : IsUnified before after diff hunks)
    (hkeeps : KeepsNumbers before after diff hunks) {h : UnifiedHunk} (hh : h ∈ hunks) {p : Hunk}
    (hold : p.old = h.range .before) (hnew : p.new = h.range .after) (path : Text) :
    Snapshot.sliceLines path (Text.lines (unifyNewlines before))
      (Text.lines (unifyNewlines after)) p =
        .ok (.ok (Snapshot.writtenPair h).unifyNewlines) := by
  have hfits := hunified.fits h hh
  have hbefore : Snapshot.take? (Text.lines (unifyNewlines before)) p.old =
      some (Snapshot.writtenPair h).unifyNewlines.before := by
    rw [hold]
    exact Snapshot.take?_unifyNewlines (hfits .before) (hkeeps.plain h hh .before)
  have hafter : Snapshot.take? (Text.lines (unifyNewlines after)) p.new =
      some (Snapshot.writtenPair h).unifyNewlines.after := by
    rw [hnew]
    exact Snapshot.take?_unifyNewlines (hfits .after) (hkeeps.plain h hh .after)
  unfold Snapshot.sliceLines
  rw [hbefore, hafter]

theorem byHunks_unifyNewlines (hunified : IsUnified before after diff hunks)
    (hkeeps : KeepsNumbers before after diff hunks) (path : Path) :
    (byHunks (FileSource.ofTexts (unifyNewlines before) (unifyNewlines after)
      (unifyNewlines diff)) path).run =
        .ok ⟨path, (hunks.map fun h => (Snapshot.writtenPair h).unifyNewlines).filter
          fun pair => !pair.isEmpty, []⟩ := by
  obtain ⟨ps, hparse, hranges⟩ := Diff.parse_unifyNewlines hunified hkeeps.opens
  have hpairs : List.Forall₂ (fun p pair => Snapshot.sliceLines path
      (Text.lines (unifyNewlines before)) (Text.lines (unifyNewlines after)) p = .ok (.ok pair))
      ps (hunks.map fun h => (Snapshot.writtenPair h).unifyNewlines) := by
    have hequal : List.Forall₂ (fun (p : Hunk) (h : UnifiedHunk) =>
        (p.old, p.new) = (h.old.range, h.new.range)) ps hunks := by
      have hforall := hranges
      rwa [← List.forall₂_eq_eq_eq, List.forall₂_map_left_iff,
        List.forall₂_map_right_iff] at hforall
    rw [List.forall₂_map_right_iff]
    refine (((List.forall₂_and_left _ _).2 ⟨fun h hh => hh, hequal.flip⟩).imp ?_).flip
    rintro h p ⟨hh, hp⟩
    exact sliceLines_unifyNewlines hunified hkeeps hh (congrArg Prod.fst hp)
      (congrArg Prod.snd hp) path
  have hslice : Snapshot.sliceFile path (unifyNewlines before) (unifyNewlines after) ps =
      .ok ⟨path, (hunks.map fun h => (Snapshot.writtenPair h).unifyNewlines).filter
        fun pair => !pair.isEmpty, []⟩ := by
    unfold Snapshot.sliceFile
    rw [Snapshot.sliceAll_of_pairs hpairs]
    rfl
  rw [byHunks_ofTexts hparse]
  dsimp only
  rw [hslice]
  rfl

end Reduction
end ChangePairs
