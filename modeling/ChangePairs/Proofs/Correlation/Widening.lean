import ChangePairs.Proofs.Correlation.Position

/-!
Matching by content against matching by position.  A changed line that lies strictly inside a
statement is a line of that statement alone and stands in its text as a whole (`HoldsAlone`), so
what it selects by position it selects by content as well.

The main statement, `collect_widens`, is about diffs all of whose meaningful lines lie so.  By
content other statements may be found as well, those that share a fragment with the line.
-/

namespace ChangePairs
namespace Correlation

open Diff (IsUnified UnifiedHunk)
open Node (AreLaidOut)
open Statement (ofNodes IsInside)

/-- Statement `i` covers line `number`, which reads `line`, no other statement does, and the line
stands in its text, with the line feed that it has in the source. -/
structure HoldsAlone (source : Text) (statements : List Statement) (i : Nat) (s : Statement)
    (number : Int) (line : Text) : Prop where
  place : statements[i]? = some s
  covers : s.covers number = true
  alone : ∀ (j : Nat) (u : Statement), statements[j]? = some u → u.covers number = true → j = i
  whole : ∃ raw, (Text.lines source)[(number - 1).toNat]? = some raw ∧ Text.chompLine raw = line ∧
    raw <:+: s.text

namespace HoldsAlone

variable {source : Text} {statements : List Statement} {i : Nat} {s u : Statement} {number : Int}
  {line : Text}

theorem eq_of_covers (h : HoldsAlone source statements i s number line) (hu : u ∈ statements)
    (hcovers : u.covers number = true) : u = s := by
  obtain ⟨j, hj⟩ := List.mem_iff_getElem?.1 hu
  obtain rfl := h.alone j u hj hcovers
  exact Option.some.inj (hj.symm.trans h.place)

theorem trim_infix (h : HoldsAlone source statements i s number line) :
    Text.trim line <:+: s.text := by
  obtain ⟨raw, -, rfl, hraw⟩ := h.whole
  exact ((Text.isInfix_trim _).trans (Text.isPrefix_chompLine raw).isInfix).trans hraw

end HoldsAlone

theorem holdsAlone_of_isInside {source : Text} {nodes : List Node}
    (hlayout : AreLaidOut source 0 nodes) {i k : Nat} {s : Statement} {line : Text}
    (hinside : IsInside (ofNodes source nodes) i s (k + 1))
    (hline : (Text.bareLines source)[k]? = some line) :
    HoldsAlone source (ofNodes source nodes) i s (k + 1) line where
  place := hinside.place
  covers := hinside.covers
  alone _ _ hu hcovers :=
    hinside.eq_of_covers hlayout.inDocumentOrder.rowsInOrder.withoutComments hu hcovers
  whole := by
    unfold Text.bareLines at hline
    rw [List.getElem?_map] at hline
    obtain ⟨raw, hraw, hbare⟩ := Option.map_eq_some_iff.1 hline
    refine ⟨raw, ?_, hbare, Statement.rawLine_infix_text hlayout hinside hraw⟩
    rwa [Int.add_sub_cancel, Int.toNat_natCast]

/-- Every meaningful line that the hunks change lies strictly inside a statement of its side. -/
def AreInside (hunks : List UnifiedHunk) (statements : Side → List Statement) : Prop :=
  ∀ h ∈ hunks, ∀ (side : Side) (number : Int) (line : Text), h.Changes side number line →
    ChangedLine.isMeaningful (Text.trim line) = true →
    ∃ i s, IsInside (statements side) i s number

/-- If all meaningful lines that a unified diff changes lie strictly inside statements, each of them
is on one statement alone and in its text, and what is found by position is found by content. -/
theorem collect_widens {texts : Side → Text} {nodes : Side → List Node} {diff : Text}
    {hunks : List UnifiedHunk} (hunified : IsUnified (texts .before) (texts .after) diff hunks)
    (hlayout : ∀ side, AreLaidOut (texts side) 0 (nodes side))
    (hinside : AreInside hunks fun side => ofNodes (texts side) (nodes side)) :
    ∃ parsed, Diff.parse diff = .ok parsed ∧
      (∀ h ∈ hunks, ∀ (side : Side) (number : Int) (line : Text), h.Changes side number line →
        ChangedLine.isMeaningful (Text.trim line) = true →
        ∃ i s, HoldsAlone (texts side) (ofNodes (texts side) (nodes side)) i s number line) ∧
      ∀ (side : Side) (t : Text),
        t ∈ (Candidates.collect .position parsed.hunks (ofNodes (texts .before) (nodes .before))
          (ofNodes (texts .after) (nodes .after))).on side →
        t ∈ (Candidates.collect .substring parsed.hunks (ofNodes (texts .before) (nodes .before))
          (ofNodes (texts .after) (nodes .after))).on side := by
  obtain ⟨ps, hparse, hreads⟩ := Diff.parse_unified hunified
  have halone : ∀ h ∈ hunks, ∀ (side : Side) (number : Int) (line : Text),
      h.Changes side number line → ChangedLine.isMeaningful (Text.trim line) = true →
      ∃ i s, HoldsAlone (texts side) (ofNodes (texts side) (nodes side)) i s number line := by
    intro h hh side number line hchange hmeaningful
    obtain ⟨i, s, hi⟩ := hinside h hh side number line hchange hmeaningful
    obtain ⟨k, rfl, hline⟩ := hchange.exists_line (hunified.fits h hh)
    rw [Side.pick_apply texts] at hline
    exact ⟨i, s, holdsAlone_of_isInside (hlayout side) hi hline⟩
  refine ⟨⟨ps, []⟩, hparse, halone, ?_⟩
  intro side t ht
  have hpick := Side.pick_apply (fun side => ofNodes (texts side) (nodes side)) side
  have hindex : ((side.pick (ofNodes (texts .before) (nodes .before))
      (ofNodes (texts .after) (nodes .after))).map Statement.index).Nodup := by
    rw [hpick]
    exact nodup_index_ofNodes _ _
  obtain ⟨u, hu, ⟨h, hh, number, line, hchange, hmeaningful, hcovers⟩, rfl⟩ :=
    (mem_on_collect_iff hreads hindex).1 ht
  -- The statement that the line touches is the one that holds it.
  obtain ⟨i, s, hs⟩ := halone h hh side number line hchange hmeaningful
  rw [hpick] at hu
  obtain rfl := hs.eq_of_covers hu hcovers
  have htouches : Matching.substring.Touches side (ChangedLine.ofHunks ps) u :=
    ⟨_, Diff.ofHunks_changes hreads hh hchange, rfl, hmeaningful, hs.trim_infix⟩
  rw [Candidates.on_collect, hpick]
  exact Candidates.mem_texts_of_touches hu htouches

/-! ## A fragment of two statements

The changed line is inside the first statement, and what it reads stands in the second one too. -/

namespace Shared

def texts (side : Side) : Text :=
  "# é\nif a:\n  x = ".toList ++ side.pick '1' '3' :: "\n  y\nif b:\n  x = 12\n  z\n".toList

def nodes : List Node :=
  [⟨"comment".toList, ⟨0, 0⟩, ⟨0, 4⟩, 4⟩, ⟨"if_statement".toList, ⟨1, 0⟩, ⟨3, 3⟩, 22⟩,
    ⟨"if_statement".toList, ⟨4, 0⟩, ⟨6, 3⟩, 41⟩]

def statements (side : Side) : List Statement := ofNodes (texts side) nodes

def diff : Text := "@@ -3 +3 @@\n-  x = 1\n+  x = 3\n".toList

def hunk : UnifiedHunk where
  old := ⟨.lastDigit 3, none⟩
  new := ⟨.lastDigit 3, none⟩
  tail := []
  body := [⟨.deleted, "  x = 1".toList⟩, ⟨.added, "  x = 3".toList⟩]

theorem isUnified : IsUnified (texts .before) (texts .after) diff [hunk] := by
  refine Diff.isUnified_of_drop 0 (by simp) (by decide +kernel) fun side => ?_
  cases side <;> exact ⟨rfl, by decide, by decide +kernel⟩

theorem areLaidOut (side : Side) : AreLaidOut (texts side) 0 nodes := by
  cases side <;>
  exact @AreLaidOut.cons _ 0 0 _ _ (by decide) (by decide) (by decide +kernel) (by decide +kernel)
      ⟨(texts _).take 3, List.take_prefix _ _, by decide +kernel⟩ <|
    @AreLaidOut.cons _ 4 5 _ _ (by decide) (by decide) (by decide +kernel) (by decide +kernel)
      ⟨(texts _).take 21, List.take_prefix _ _, by decide +kernel⟩ <|
    @AreLaidOut.cons _ 22 23 _ _ (by decide) (by decide) (by decide +kernel) (by decide +kernel)
      ⟨(texts _).take 40, List.take_prefix _ _, by decide +kernel⟩ <|
    .nil _

def first (side : Side) : Statement :=
  ⟨0, "if_statement".toList, "# é\nif a:\n  x = ".toList ++ side.pick '1' '3' :: "\n  y".toList,
    1, 4⟩

def second : Statement :=
  ⟨1, "if_statement".toList, "\nif b:\n  x = 12\n  z".toList, 5, 7⟩

theorem statements_eq (side : Side) : statements side = [first side, second] := by
  cases side <;> decide +kernel

theorem isInside (side : Side) : IsInside (statements side) 0 (first side) 3 := by
  rw [statements_eq]
  exact ⟨rfl, by simp [first], by simp [first], fun _ h => absurd h (Nat.lt_irrefl 0)⟩

theorem number_of_changes {side : Side} {number : Int} {line : Text}
    (h : hunk.Changes side number line) : number = 3 := by
  obtain ⟨front, back, hbody, rfl⟩ := h
  cases front with
  | nil => cases side <;> rfl
  | cons deleted front =>
    obtain ⟨rfl, htail⟩ := List.cons.inj hbody
    cases front with
    | nil =>
      cases side with
      | before =>
        have hkind : Diff.LineKind.added = .deleted :=
          congrArg Diff.BodyLine.kind (List.cons.inj htail).1
        nomatch hkind
      | after => rfl
    | cons added front =>
      have hlength := congrArg List.length (List.cons.inj htail).2
      simp at hlength

theorem areInside : AreInside [hunk] statements := by
  intro h hh side number line hchange _
  obtain rfl := List.mem_singleton.1 hh
  obtain rfl := number_of_changes hchange
  exact ⟨0, first side, isInside side⟩

theorem changes : hunk.Changes .before 3 "  x = 1".toList := ⟨[], hunk.body.drop 1, rfl, rfl⟩

def parsed : Diff.Parsed := ⟨[⟨"@@ -3 +3 @@".toList, ⟨3, 1⟩, ⟨3, 1⟩, diff⟩], []⟩

theorem parse_eq : Diff.parse diff = .ok parsed := rfl

def found (m : Matching) : Candidates :=
  Candidates.collect m parsed.hunks (statements .before) (statements .after)

end Shared

theorem collect_widens_shared :
    IsUnified (Shared.texts .before) (Shared.texts .after) Shared.diff [Shared.hunk] ∧
      (∀ side, AreLaidOut (Shared.texts side) 0 Shared.nodes) ∧
      AreInside [Shared.hunk] Shared.statements ∧
      Shared.hunk.Changes .before 3 "  x = 1".toList ∧
      (∃ i s, HoldsAlone (Shared.texts .before) (Shared.statements .before) i s 3
        "  x = 1".toList) ∧
      (Shared.first .before).text ∈ (Shared.found .position).before ∧
      (Shared.first .before).text ∈ (Shared.found .substring).before := by
  refine ⟨Shared.isUnified, Shared.areLaidOut, Shared.areInside, Shared.changes, ?_⟩
  obtain ⟨parsed, hparse, halone, hwiden⟩ := @collect_widens Shared.texts (fun _ => Shared.nodes)
    _ _ Shared.isUnified Shared.areLaidOut Shared.areInside
  obtain rfl : Shared.parsed = parsed := Except.ok.inj (Shared.parse_eq.symm.trans hparse)
  have hfound : (Shared.first .before).text ∈ (Shared.found .position).before := by decide +kernel
  exact ⟨halone Shared.hunk (List.mem_singleton.2 rfl) .before 3 _ Shared.changes
    (by decide +kernel), hfound, hwiden .before _ hfound⟩

/-- The other statement is found by content only. -/
example : (Shared.found .position).before = [(Shared.first .before).text] ∧
    (Shared.found .substring).before = [(Shared.first .before).text, Shared.second.text] := by
  decide +kernel

end Correlation
end ChangePairs
