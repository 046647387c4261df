import ChangePairs.Proofs.Diff.Change
import ChangePairs.Proofs.Statement.Layout

/-!
Changed lines inside statements.  A line below the statement before and above the last line of a
statement stands in the statement's text, and the statement covers it.  So if the line is changed,
the text is a candidate, and unless it cancels out its side of the pair holds the line: nothing
but line feeds is dropped from a snippet, and the content of a meaningful line begins with none.

The main statement, `correlate_interior`, says this of every unified diff between two sources.
-/

namespace ChangePairs

theorem ChangedLine.exists_cons_of_isMeaningful {line : Text}
    (h : ChangedLine.isMeaningful (Text.trim line) = true) :
    ∃ c rest, Text.trim line = c :: rest ∧ c ≠ '\n' := by
  cases htrim : Text.trim line with
  | nil =>
    rw [htrim] at h
    simp [ChangedLine.isMeaningful] at h
  | cons c rest =>
    refine ⟨c, rest, rfl, ?_⟩
    rintro rfl
    have hblank := Text.isBlank_of_trim_eq_cons htrim
    nomatch hblank

namespace Correlation

open Diff (IsUnified UnifiedHunk)
open Node (AreLaidOut)
open Statement (ofNodes)

/-- What stands in a text that is left stands in the snippet of its side. -/
theorem infix_pair {c : Candidates} {side : Side} {t part : Text} {d : Char} (ht : t ∈ c.on side)
    (hd : d ≠ '\n') (hpart : d :: part <:+: t) :
    d :: part <:+: side.pick c.pair.before c.pair.after := by
  rw [Candidates.pick_pair]
  exact Text.infix_dropWhile (by simpa using hd) (hpart.trans (List.infix_of_mem_flatten ht))

theorem isEmpty_eq_false {pair : SnippetPair} {side : Side}
    (h : side.pick pair.before pair.after ≠ []) : pair.isEmpty = false := by
  cases side with
  | before =>
    have hne : pair.before ≠ [] := h
    simp [SnippetPair.isEmpty, hne]
  | after =>
    have hne : pair.after ≠ [] := h
    simp [SnippetPair.isEmpty, hne]

/-- A candidate that does not cancel out leaves a pair that holds what the candidate holds. -/
theorem exists_pair {path diff : Text} {m : Matching} {hunks : List Hunk}
    (hparse : Diff.parse diff = .ok ⟨hunks, []⟩) {before after : List Statement} {side : Side}
    {t part : Text} {d : Char} (ht : t ∈ (Candidates.collect m hunks before after).on side)
    (hkept : t ∉ (Candidates.collect m hunks before after).unchanged) (hd : d ≠ '\n')
    (hpart : d :: part <:+: t) :
    ∃ pair, correlate m path diff (some before) (some after) = .ok ⟨path, [pair], []⟩ ∧
      d :: part <:+: side.pick pair.before pair.after := by
  have hinfix := infix_pair (Candidates.mem_on_cancel ht hkept) hd hpart
  have hne := List.IsInfix.ne_nil hinfix (List.cons_ne_nil d part)
  refine ⟨_, ?_, hinfix⟩
  rw [correlate_of_read hparse (Diff.rejections_of_parse hparse).symm]
  simp [isEmpty_eq_false hne]

/-- Every meaningful line that a unified diff changes strictly inside a statement is in the pair of
the file, on its side, unless the text of the statement cancels out. -/
theorem correlate_interior {texts : Side → Text} {nodes : Side → List Node} {diff : Text}
    {hunks : List UnifiedHunk} (hunified : IsUnified (texts .before) (texts .after) diff hunks)
    (hlayout : ∀ side, AreLaidOut (texts side) 0 (nodes side)) (path : Text) :
    ∃ parsed, Diff.parse diff = .ok parsed ∧
      ∀ h ∈ hunks, ∀ (side : Side) (number : Int) (line : Text), h.Changes side number line →
        ChangedLine.isMeaningful (Text.trim line) = true →
        ∀ (i : Nat) (s : Statement),
          Statement.IsInside (ofNodes (texts side) (nodes side)) i s number →
          (Text.bareLines (texts side))[(number - 1).toNat]? = some line ∧
          (s.text ∈ (Candidates.collect .position parsed.hunks
              (ofNodes (texts .before) (nodes .before))
              (ofNodes (texts .after) (nodes .after))).unchanged ∨
            ∃ pair, correlate .position path diff (some (ofNodes (texts .before) (nodes .before)))
                (some (ofNodes (texts .after) (nodes .after))) = .ok ⟨path, [pair], []⟩ ∧
              Text.trim line <:+: side.pick pair.before pair.after) := by
  obtain ⟨ps, hparse, hreads⟩ := Diff.parse_unified hunified
  refine ⟨⟨ps, []⟩, hparse, ?_⟩
  intro h hh side number line hchange hmeaningful i s hinside
  obtain ⟨k, rfl, hline⟩ := hchange.exists_line (hunified.fits h hh)
  rw [Side.pick_apply texts] at hline
  refine ⟨by simpa using hline, ?_⟩
  have htext : line <:+: s.text := Statement.line_infix_text (hlayout side) hinside hline
  -- The entry of the line touches the statement.
  have htouches : Matching.position.Touches side (ChangedLine.ofHunks ps) s :=
    ⟨_, Diff.ofHunks_changes hreads hh hchange, rfl, hmeaningful, hinside.firstLine_le,
      Int.le_of_lt hinside.lt_lastLine⟩
  have hcandidate : s.text ∈ (Candidates.collect .position ps
      (ofNodes (texts .before) (nodes .before))
      (ofNodes (texts .after) (nodes .after))).on side := by
    rw [Candidates.on_collect, Side.pick_apply fun side => ofNodes (texts side) (nodes side)]
    exact Candidates.mem_texts_of_touches (List.mem_of_getElem? hinside.place) htouches
  by_cases hcancelled : s.text ∈ (Candidates.collect .position ps
      (ofNodes (texts .before) (nodes .before))
      (ofNodes (texts .after) (nodes .after))).unchanged
  · exact .inl hcancelled
  · right
    obtain ⟨d, rest, htrim, hd⟩ := ChangedLine.exists_cons_of_isMeaningful hmeaningful
    have hpart := (Text.isInfix_trim line).trans htext
    rw [htrim] at hpart ⊢
    exact exists_pair hparse hcandidate hcancelled hd hpart

/-! ## A change inside a function -/

namespace Edited

def texts (side : Side) : Text := Statement.TwoFunctions.source (side.pick '1' '2')

def nodes : List Node := Statement.TwoFunctions.nodes

def diff : Text := "@@ -3,3 +3,3 @@\n // ö\n fn f() \x7b\n-  x = é1\n+  x = é2\n".toList

def hunk : UnifiedHunk where
  old := ⟨.single '3' rfl, some (.single '3' rfl)⟩
  new := ⟨.single '3' rfl, some (.single '3' rfl)⟩
  tail := []
  body :=
    [⟨.context, "// ö".toList⟩, ⟨.context, "fn f() \x7b".toList⟩,
      ⟨.deleted, "  x = é1".toList⟩, ⟨.added, "  x = é2".toList⟩]

def function : Statement :=
  ⟨1, "function".toList, "\n\n// ö\nfn f() \x7b\n  x = é1\n\x7d".toList, 2, 6⟩

theorem isUnified : IsUnified (texts .before) (texts .after) diff [hunk] := by
  refine ⟨⟨[], Text.lines diff, rfl, by simp, by decide +kernel⟩, ?_⟩
  intro h hh side
  obtain rfl := List.mem_singleton.1 hh
  cases side <;> exact ⟨rfl, by decide, by decide +kernel⟩

theorem areLaidOut (side : Side) : AreLaidOut (texts side) 0 nodes := by
  cases side <;>
  exact @AreLaidOut.cons _ 0 0 _ _ (by decide) (by decide) (by decide +kernel) (by decide +kernel)
      ⟨(texts _).take 8, List.take_prefix _ _, by decide +kernel⟩ <|
    @AreLaidOut.cons _ 8 10 _ _ (by decide) (by decide) (by decide +kernel) (by decide +kernel)
      ⟨(texts _).take 14, List.take_prefix _ _, by decide +kernel⟩ <|
    @AreLaidOut.cons _ 15 16 _ _ (by decide) (by decide) (by decide +kernel) (by decide +kernel)
      ⟨(texts _).take 34, List.take_prefix _ _, by decide +kernel⟩ <|
    @AreLaidOut.cons _ 36 37 _ _ (by decide) (by decide) (by decide +kernel) (by decide +kernel)
      ⟨(texts _).take 44, List.take_prefix _ _, by decide +kernel⟩ <|
    .nil _

theorem changes : hunk.Changes .before 5 "  x = é1".toList :=
  ⟨hunk.body.take 2, hunk.body.drop 3, rfl, by decide +kernel⟩

theorem isInside :
    Statement.IsInside (ofNodes (texts .before) nodes) 1 function 5 := by
  refine ⟨by decide +kernel, by decide, by decide, ?_⟩
  intro p _ hp
  have hfirst : (ofNodes (texts .before) nodes)[1 - 1]? =
      some ⟨0, "import".toList, "import a".toList, 1, 1⟩ := by decide +kernel
  obtain rfl := Option.some.inj (hfirst.symm.trans hp)
  decide

end Edited

theorem correlate_interior_edited :
    IsUnified (Edited.texts .before) (Edited.texts .after) Edited.diff [Edited.hunk] ∧
      (∀ side, AreLaidOut (Edited.texts side) 0 Edited.nodes) ∧
      Edited.hunk.Changes .before 5 "  x = é1".toList ∧
      Statement.IsInside (ofNodes (Edited.texts .before) Edited.nodes) 1 Edited.function 5 ∧
      ∃ parsed, Diff.parse Edited.diff = .ok parsed ∧
        (Text.bareLines (Edited.texts .before))[4]? = some "  x = é1".toList ∧
        (Edited.function.text ∈ (Candidates.collect .position parsed.hunks
            (ofNodes (Edited.texts .before) Edited.nodes)
            (ofNodes (Edited.texts .after) Edited.nodes)).unchanged ∨
          ∃ pair, correlate .position "f".toList Edited.diff
              (some (ofNodes (Edited.texts .before) Edited.nodes))
              (some (ofNodes (Edited.texts .after) Edited.nodes)) = .ok ⟨"f".toList, [pair], []⟩ ∧
            Text.trim "  x = é1".toList <:+: pair.before) := by
  refine ⟨Edited.isUnified, Edited.areLaidOut, Edited.changes, Edited.isInside, ?_⟩
  obtain ⟨parsed, hparse, hall⟩ := @correlate_interior Edited.texts (fun _ => Edited.nodes) _ _
    Edited.isUnified Edited.areLaidOut "f".toList
  have hedited := hall Edited.hunk (List.mem_singleton.2 rfl) .before 5 _ Edited.changes
    (by decide +kernel) 1 Edited.function Edited.isInside
  exact ⟨parsed, hparse, hedited⟩

end Correlation
end ChangePairs
