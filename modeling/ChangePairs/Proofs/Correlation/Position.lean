import ChangePairs.Proofs.Diff.Change
import ChangePairs.Proofs.Statement.Layout

/-!
Changed lines and the texts that stand on them.  The text of a statement goes back to where the
node of the one before it ends, and its lines only to the line below, unless its own node starts
further up.  So there is one kind of line on which a statement may have text without covering it:
the last line of the statement before, when its own node starts on a later one.  What it has there
is a comment behind the other statement (`covers_iff_not_isBehind`).

The main statement, `collect_holds`, says this of every line that a unified diff changes, and what
it means for the candidates.
-/

namespace ChangePairs

namespace Statement

open Node (withoutComments AreLaidOut)
open Octets (IsFront)

/-- Statement `i` has a character on line `number` that is not blank.  The character stands in the
source behind the texts of the statements before. -/
structure Holds (source : Text) (statements : List Statement) (i : Nat) (s : Statement)
    (number : Int) : Prop where
  place : statements[i]? = some s
  character : ∃ front c back, s.text = front ++ c :: back ∧ Text.isBlank c = false ∧
    (statements.take i).flatMap text ++ front ++ [c] <+: source ∧
    number = ((statements.take i).flatMap text ++ front).count '\n' + 1

/-- The line is the last one of the statement before, and the node of statement `i` starts on a
later one. -/
inductive IsBehind (nodes : List Node) : Nat → Int → Prop where
  | intro {i : Nat} {p n : Node} {number : Int} (before : (withoutComments nodes)[i]? = some p)
    (own : (withoutComments nodes)[i + 1]? = some n) (last : number = p.lastRow + 1)
    (later : number < n.start.row + 1) : IsBehind nodes (i + 1) number

/-! ## Rows -/

variable {source : Text} {nodes : List Node} {i : Nat} {s : Statement} {number : Int}

theorem front_eq_take {front : Text} (h : AreLaidOut source 0 nodes)
    (hi : i ≤ (withoutComments nodes).length)
    (hfront : IsFront source (leadOctet 0 (withoutComments nodes) i) front) :
    front = ((ofNodes source nodes).take i).flatMap text :=
  hfront.unique (isFront_take_ofNodes h.endsInOrder hi)

/-- What a statement has on a line stands no lower than the last row of its node. -/
theorem Holds.le_lastLine (h : AreLaidOut source 0 nodes)
    (hholds : Holds source (ofNodes source nodes) i s number) : number ≤ s.lastLine := by
  obtain ⟨hs, front, c, back, htext, hblank, hsource, hnumber⟩ := hholds
  have hc : c ≠ '\n' := by
    rintro rfl
    nomatch hblank
  obtain ⟨n, hn, -, hlast⟩ := exists_node hs
  obtain ⟨hi, -⟩ := List.getElem?_eq_some_iff.1 hn
  obtain ⟨lead, hlead, hnext⟩ := exists_fronts h.endsInOrder hs hn
  obtain rfl := front_eq_take h (Nat.le_of_lt hi) hlead
  obtain ⟨hbefore, -⟩ := Text.between_lines hsource hc
  rw [hlast, hnumber]
  by_contra hlt
  -- Else the whole text of the statement would end above the line of the character.
  have hshort := ((Node.front_between (stop_eq_of_getElem? h hn) hnext).1 (by omega)).trans hbefore
  have hlength := hshort.length_le
  rw [htext] at hlength
  simp only [List.length_append, List.length_cons] at hlength
  omega

/-- What a statement has on a line stands no higher than the last row of the node before. -/
theorem Holds.lastRow_lt (h : AreLaidOut source 0 nodes)
    (hholds : Holds source (ofNodes source nodes) (i + 1) s number) {p : Node}
    (hp : (withoutComments nodes)[i]? = some p) : p.lastRow < number := by
  obtain ⟨-, front, c, back, -, hblank, hsource, hnumber⟩ := hholds
  have hc : c ≠ '\n' := by
    rintro rfl
    nomatch hblank
  obtain ⟨hi, -⟩ := List.getElem?_eq_some_iff.1 hp
  have hnext : i + 1 ≤ (withoutComments nodes).length := hi
  have hlead := isFront_take_ofNodes h.endsInOrder hnext
  rw [leadOctet_succ hp] at hlead
  obtain ⟨-, hafter⟩ := Text.between_lines hsource hc
  rw [hnumber]
  by_contra hle
  -- Else the line of the character would end before the text of the statement begins.
  have hshort := hafter.trans
    ((Node.front_between (stop_eq_of_getElem? h hp) hlead).2 (by omega))
  have hlength := hshort.length_le
  simp only [List.length_append, List.length_singleton] at hlength
  omega

/-- A statement covers the lines that its text has something on, except for a line that belongs to
the statement before. -/
theorem covers_iff_not_isBehind (h : AreLaidOut source 0 nodes)
    (hholds : Holds source (ofNodes source nodes) i s number) :
    s.covers number = true ↔ ¬ IsBehind nodes i number := by
  have hlast := hholds.le_lastLine h
  obtain ⟨n, hn, hfirst, -⟩ := exists_node hholds.place
  rw [covers_iff]
  cases i with
  | zero =>
    have hone := firstLine_zero hholds.place
    obtain ⟨-, front, c, back, -, -, -, hnumber⟩ := hholds
    refine iff_of_true ⟨by omega, hlast⟩ ?_
    intro hbehind
    nomatch hbehind
  | succ i =>
    obtain ⟨p, hp⟩ := exists_before hn
    have hlt := hholds.lastRow_lt h hp
    rw [leadRow_succ hp] at hfirst
    constructor
    · rintro ⟨hle, -⟩ hbehind
      cases hbehind with
      | intro before own last later =>
        obtain rfl := Option.some.inj (before.symm.trans hp)
        obtain rfl := Option.some.inj (own.symm.trans hn)
        omega
    · intro hbehind
      refine ⟨?_, hlast⟩
      by_contra hle
      exact hbehind (.intro hp hn (by omega) (by omega))

end Statement

/-! ## Candidates -/

namespace Correlation

open Diff (IsUnified UnifiedHunk)
open Node (AreLaidOut)
open Statement (ofNodes Holds IsBehind)

/-- A meaningful line that the hunks change on a side lies on the lines of the statement. -/
def IsTouched (hunks : List UnifiedHunk) (side : Side) (s : Statement) : Prop :=
  ∃ h ∈ hunks, ∃ number line, h.Changes side number line ∧
    ChangedLine.isMeaningful (Text.trim line) = true ∧ s.covers number = true

theorem touches_iff_isTouched {hunks : List UnifiedHunk} {ps : List Hunk}
    (hreads : List.Forall₂ Diff.Reads hunks ps) {side : Side} {s : Statement} :
    Matching.position.Touches side (ChangedLine.ofHunks ps) s ↔ IsTouched hunks side s := by
  constructor
  · rintro ⟨l, hl, rfl, hmeaningful, hselects⟩
    obtain ⟨h, hh, line, hchange, hcontent⟩ := Diff.exists_changes_of_mem_ofHunks hreads hl
    rw [hcontent] at hmeaningful
    exact ⟨h, hh, l.number, line, hchange, hmeaningful, Statement.covers_iff.2 hselects⟩
  · rintro ⟨h, hh, number, line, hchange, hmeaningful, hcovers⟩
    exact ⟨_, Diff.ofHunks_changes hreads hh hchange, rfl, hmeaningful,
      Statement.covers_iff.1 hcovers⟩

theorem nodup_index_ofNodes (source : Text) (nodes : List Node) :
    ((ofNodes source nodes).map Statement.index).Nodup := by
  rw [Statement.map_index_ofNodes]
  exact List.nodup_range.map fun _ _ => Int.ofNat.inj

/-- A text is a candidate if a statement with that text is touched. -/
theorem mem_on_collect_iff {hunks : List UnifiedHunk} {ps : List Hunk}
    (hreads : List.Forall₂ Diff.Reads hunks ps) {side : Side} {olds news : List Statement}
    (hindex : ((side.pick olds news).map Statement.index).Nodup) {t : Text} :
    t ∈ (Candidates.collect .position ps olds news).on side ↔
      ∃ u ∈ side.pick olds news, IsTouched hunks side u ∧ u.text = t := by
  rw [Candidates.on_collect]
  unfold Candidates.texts
  rw [mem_distinct_filter]
  refine exists_congr fun u => and_congr_right fun hu => and_congr_left' ?_
  rw [Candidates.contains_selected_iff hindex hu, touches_iff_isTouched hreads]

/-- A statement that has something on a meaningful changed line covers it, and its text is a
candidate, unless the line belongs to the statement before.  Then the text is a candidate only if
a statement with the same text is touched elsewhere. -/
theorem collect_holds {before after diff : Text} {hunks : List UnifiedHunk}
    (hunified : IsUnified before after diff hunks) :
    ∃ parsed, Diff.parse diff = .ok parsed ∧
      ∀ (side : Side) (nodes : List Node) (olds news : List Statement),
        AreLaidOut (side.pick before after) 0 nodes →
        side.pick olds news = ofNodes (side.pick before after) nodes →
        ∀ h ∈ hunks, ∀ (number : Int) (line : Text), h.Changes side number line →
          ChangedLine.isMeaningful (Text.trim line) = true →
          ∀ (i : Nat) (s : Statement),
            Holds (side.pick before after) (side.pick olds news) i s number →
            (Text.bareLines (side.pick before after))[(number - 1).toNat]? = some line ∧
            (s.covers number = true ↔ ¬ IsBehind nodes i number) ∧
            (s.text ∈ (Candidates.collect .position parsed.hunks olds news).on side ↔
              ¬ IsBehind nodes i number ∨
                ∃ u ∈ side.pick olds news, IsTouched hunks side u ∧ u.text = s.text) := by
  obtain ⟨ps, hparse, hreads⟩ := Diff.parse_unified hunified
  refine ⟨⟨ps, []⟩, hparse, ?_⟩
  intro side nodes olds news hlayout hside h hh number line hchange hmeaningful i s hholds
  have hmem := List.mem_of_getElem? hholds.place
  have hindex : ((side.pick olds news).map Statement.index).Nodup := by
    rw [hside]
    exact nodup_index_ofNodes _ _
  have hcovers : s.covers number = true ↔ ¬ IsBehind nodes i number := by
    rw [hside] at hholds
    exact Statement.covers_iff_not_isBehind hlayout hholds
  refine ⟨?_, hcovers, ?_⟩
  · obtain ⟨k, rfl, hline⟩ := hchange.exists_line (hunified.fits h hh)
    rwa [Int.add_sub_cancel, Int.toNat_natCast]
  · rw [mem_on_collect_iff hreads hindex, or_iff_right_of_imp]
    intro hbehind
    exact ⟨s, hmem, ⟨h, hh, number, line, hchange, hmeaningful, hcovers.2 hbehind⟩, rfl⟩

/-! ## A comment behind a statement

The comment stands on the only line of the first statement and in the text of the second one. -/

namespace Commented

def texts (side : Side) : Text :=
  "x = 1; // ".toList ++ side.pick 'a' 'b' :: "\ny = 2;\n".toList

def nodes : List Node :=
  [⟨"expression".toList, ⟨0, 0⟩, ⟨0, 6⟩, 6⟩, ⟨"comment".toList, ⟨0, 7⟩, ⟨0, 11⟩, 11⟩,
    ⟨"expression".toList, ⟨1, 0⟩, ⟨1, 6⟩, 18⟩]

def statements (side : Side) : List Statement := ofNodes (texts side) nodes

def diff : Text := "@@ -1 +1 @@\n-x = 1; // a\n+x = 1; // b\n".toList

def hunk : UnifiedHunk where
  old := ⟨.lastDigit 1, none⟩
  new := ⟨.lastDigit 1, none⟩
  tail := []
  body := [⟨.deleted, "x = 1; // a".toList⟩, ⟨.added, "x = 1; // b".toList⟩]

def first : Statement := ⟨0, "expression".toList, "x = 1;".toList, 1, 1⟩

def second : Statement := ⟨1, "expression".toList, " // a\ny = 2;".toList, 2, 2⟩

theorem isUnified : IsUnified (texts .before) (texts .after) diff [hunk] := by
  refine Diff.isUnified_of_drop 0 (by simp) (by decide +kernel) fun side => ?_
  cases side <;> exact ⟨rfl, by decide, by decide +kernel⟩

theorem areLaidOut (side : Side) : AreLaidOut (texts side) 0 nodes := by
  cases side <;>
  exact @AreLaidOut.cons _ 0 0 _ _ (by decide) (by decide) (by decide +kernel) (by decide +kernel)
      ⟨(texts _).take 6, List.take_prefix _ _, by decide +kernel⟩ <|
    @AreLaidOut.cons _ 6 7 _ _ (by decide) (by decide) (by decide +kernel) (by decide +kernel)
      ⟨(texts _).take 11, List.take_prefix _ _, by decide +kernel⟩ <|
    @AreLaidOut.cons _ 11 12 _ _ (by decide) (by decide) (by decide +kernel) (by decide +kernel)
      ⟨(texts _).take 18, List.take_prefix _ _, by decide +kernel⟩ <|
    .nil _

theorem changes : hunk.Changes .before 1 "x = 1; // a".toList :=
  ⟨[], hunk.body.drop 1, rfl, by decide +kernel⟩

theorem holds_first : Holds (texts .before) (statements .before) 0 first 1 :=
  ⟨by decide +kernel, [], 'x', " = 1;".toList, rfl, rfl, ⟨" = 1; // a\ny = 2;\n".toList, rfl⟩, rfl⟩

theorem holds_second : Holds (texts .before) (statements .before) 1 second 1 :=
  ⟨by decide +kernel, " ".toList, '/', "/ a\ny = 2;".toList, rfl, rfl, by decide +kernel,
    by decide +kernel⟩

theorem isBehind_second : IsBehind nodes 1 1 := .intro rfl rfl rfl (by decide)

/-! The second statement has a line of its own, too. -/

def below : UnifiedHunk where
  old := ⟨.lastDigit 2, none⟩
  new := ⟨.lastDigit 2, none⟩
  tail := []
  body := [⟨.deleted, "y = 2;".toList⟩, ⟨.added, "y = 3;".toList⟩]

def belowDiff : Text := "@@ -2 +2 @@\n-y = 2;\n+y = 3;\n".toList

theorem isUnified_below :
    IsUnified (texts .before) "x = 1; // a\ny = 3;\n".toList belowDiff [below] := by
  refine Diff.isUnified_of_drop 0 (by simp) (by decide +kernel) fun side => ?_
  cases side <;> exact ⟨rfl, by decide, by decide +kernel⟩

theorem changes_below : below.Changes .before 2 "y = 2;".toList :=
  ⟨[], below.body.drop 1, rfl, by decide +kernel⟩

theorem holds_below : Holds (texts .before) (statements .before) 1 second 2 :=
  ⟨by decide +kernel, " // a\n".toList, 'y', " = 2;".toList, rfl, rfl, by decide +kernel,
    by decide +kernel⟩

theorem not_isBehind_below : ¬ IsBehind nodes 1 2 := by
  intro hbehind
  cases hbehind with
  | intro before own last later =>
    obtain rfl := Option.some.inj own
    exact absurd later (by decide)

end Commented

/-- The first statement covers the line of the comment and the second one does not, which is a
candidate when the line of its node is changed. -/
theorem collect_holds_commented :
    IsUnified (Commented.texts .before) (Commented.texts .after) Commented.diff
        [Commented.hunk] ∧
      AreLaidOut (Commented.texts .before) 0 Commented.nodes ∧
      Commented.hunk.Changes .before 1 "x = 1; // a".toList ∧
      Holds (Commented.texts .before) (Commented.statements .before) 0 Commented.first 1 ∧
      (∃ parsed, Diff.parse Commented.diff = .ok parsed ∧
        Commented.first.covers 1 = true ∧ ¬ Commented.second.covers 1 = true ∧
        Commented.first.text ∈ (Candidates.collect .position parsed.hunks
          (Commented.statements .before) (Commented.statements .after)).before) ∧
      Holds (Commented.texts .before) (Commented.statements .before) 1 Commented.second 2 ∧
      ∃ parsed, Diff.parse Commented.belowDiff = .ok parsed ∧
        Commented.second.covers 2 = true ∧
        Commented.second.text ∈ (Candidates.collect .position parsed.hunks
          (Commented.statements .before) []).before := by
  refine ⟨Commented.isUnified, Commented.areLaidOut _, Commented.changes, Commented.holds_first,
    ?_, Commented.holds_below, ?_⟩
  · obtain ⟨parsed, hparse, hall⟩ := collect_holds Commented.isUnified
    have hline := hall .before Commented.nodes (Commented.statements .before)
      (Commented.statements .after) (Commented.areLaidOut _) rfl _ (List.mem_singleton.2 rfl) 1 _
      Commented.changes (by decide +kernel)
    have hfirst := hline 0 _ Commented.holds_first
    have hsecond := hline 1 _ Commented.holds_second
    have hnot : ¬ IsBehind Commented.nodes 0 1 := nofun
    refine ⟨parsed, hparse, hfirst.2.1.2 hnot, ?_, hfirst.2.2.2 (.inl hnot)⟩
    exact fun hcovers => hsecond.2.1.1 hcovers Commented.isBehind_second
  · obtain ⟨parsed, hparse, hall⟩ := collect_holds Commented.isUnified_below
    have hsecond := hall .before Commented.nodes (Commented.statements .before) []
      (Commented.areLaidOut _) rfl _ (List.mem_singleton.2 rfl) 2 _ Commented.changes_below
      (by decide +kernel) 1 _ Commented.holds_below
    exact ⟨parsed, hparse, hsecond.2.1.2 Commented.not_isBehind_below,
      hsecond.2.2.2 (.inl Commented.not_isBehind_below)⟩

/-- The comment is changed, and the statement that it belongs to is no candidate. -/
theorem not_collect_commented :
    IsUnified (Commented.texts .before) (Commented.texts .after) Commented.diff
        [Commented.hunk] ∧
      (∀ side, AreLaidOut (Commented.texts side) 0 Commented.nodes) ∧
      Commented.hunk.Changes .before 1 "x = 1; // a".toList ∧
      ChangedLine.isMeaningful (Text.trim "x = 1; // a".toList) = true ∧
      Holds (Commented.texts .before) (Commented.statements .before) 1 Commented.second 1 ∧
      ∃ parsed, Diff.parse Commented.diff = .ok parsed ∧
        Commented.second.text ∉ (Candidates.collect .position parsed.hunks
          (Commented.statements .before) (Commented.statements .after)).before := by
  refine ⟨Commented.isUnified, Commented.areLaidOut, Commented.changes, by decide +kernel,
    Commented.holds_second, _, rfl, ?_⟩
  decide +kernel

end Correlation
end ChangePairs
