import Mathlib.Data.List.Chain
import ChangePairs.Proofs.Correlation
import ChangePairs.Proofs.Statement.Outline

/-!
The lines of statements.  Nodes that follow one another in a file make statements whose lines
follow one another: a statement begins on the line below the one before it, or on the last line
of that one if its own node does (`firstLine_succ`).

The main statement, `ofNodes_spans`, says that no line up to the last one is left out and that
two statements share a line only where one ends and the other begins.  So a changed line on any
of these lines selects a statement by its position.
-/

namespace ChangePairs

instance : LE Point where
  le p q := p.row < q.row ∨ (p.row = q.row ∧ p.column ≤ q.column)

instance (p q : Point) : Decidable (p ≤ q) :=
  inferInstanceAs (Decidable (p.row < q.row ∨ (p.row = q.row ∧ p.column ≤ q.column)))

theorem Point.row_le {p q : Point} (h : p ≤ q) : p.row ≤ q.row := by
  have h : p.row < q.row ∨ (p.row = q.row ∧ p.column ≤ q.column) := h
  omega

namespace Node

/-- Nodes in the order of the file: each ends where it starts or later, and starts where the one
before it ends or later. -/
structure InDocumentOrder (nodes : List Node) : Prop where
  forward : ∀ n ∈ nodes, n.start ≤ n.stop
  apart : nodes.IsChain fun a b => a.stop ≤ b.start

/-- What document order says of rows.  Nodes may be left out of such a list. -/
structure RowsInOrder (nodes : List Node) : Prop where
  forward : ∀ n ∈ nodes, n.start.row ≤ n.lastRow
  apart : nodes.Pairwise fun a b => a.lastRow ≤ b.start.row

theorem lastRow_of_le {n : Node} (h : n.start ≤ n.stop) :
    n.start.row ≤ n.lastRow ∧ n.lastRow ≤ n.stop.row := by
  have hrow := Point.row_le h
  unfold lastRow
  split
  · omega
  · omega

theorem InDocumentOrder.rowsInOrder {nodes : List Node} (h : InDocumentOrder nodes) :
    RowsInOrder nodes := by
  induction nodes with
  | nil => exact ⟨by simp, .nil⟩
  | cons a nodes ih =>
    have ha := lastRow_of_le (h.forward a List.mem_cons_self)
    have hnodes := ih ⟨fun n hn => h.forward n (List.mem_cons_of_mem a hn), h.apart.tail⟩
    refine ⟨List.forall_mem_cons.2 ⟨ha.1, hnodes.forward⟩, List.pairwise_cons.2 ⟨?_, hnodes.apart⟩⟩
    intro c hc
    cases nodes with
    | nil => simp at hc
    | cons b nodes =>
      have hab := Point.row_le (List.isChain_cons_cons.1 h.apart).1
      rcases List.mem_cons.1 hc with rfl | hc
      · omega
      · -- The node between the two ends no earlier than it starts.
        have hb := hnodes.forward b List.mem_cons_self
        have hbc := (List.pairwise_cons.1 hnodes.apart).1 c hc
        omega

theorem RowsInOrder.withoutComments {nodes : List Node} (h : RowsInOrder nodes) :
    RowsInOrder (withoutComments nodes) :=
  ⟨fun n hn => h.forward n (List.mem_filter.1 hn).1, h.apart.filter _⟩

theorem RowsInOrder.lastRow_le {nodes : List Node} (h : RowsInOrder nodes) {i j : Nat} {a b : Node}
    (hij : i ≤ j) (ha : nodes[i]? = some a) (hb : nodes[j]? = some b) : a.lastRow ≤ b.lastRow := by
  obtain ⟨hi, rfl⟩ := List.getElem?_eq_some_iff.1 ha
  obtain ⟨hj, rfl⟩ := List.getElem?_eq_some_iff.1 hb
  rcases Nat.eq_or_lt_of_le hij with rfl | hlt
  · exact Nat.le_refl _
  · exact Nat.le_trans (List.pairwise_iff_getElem.1 h.apart i j hi hj hlt)
      (h.forward _ (List.getElem_mem hj))

end Node

namespace Statement

open Node (withoutComments InDocumentOrder RowsInOrder)

theorem covers_iff {s : Statement} {line : Int} :
    s.covers line = true ↔ s.firstLine ≤ line ∧ line ≤ s.lastLine := by
  simp [covers]

/-! ## Neighbours -/

theorem exists_node {source : Text} {nodes : List Node} {i : Nat} {s : Statement}
    (h : (ofNodes source nodes)[i]? = some s) :
    ∃ n, (withoutComments nodes)[i]? = some n ∧
      s.firstLine = min (leadRow 0 (withoutComments nodes) i) n.start.row + 1 ∧
      s.lastLine = n.lastRow + 1 := by
  rw [getElem?_ofNodes] at h
  obtain ⟨n, hn, rfl⟩ := Option.map_eq_some_iff.1 h
  exact ⟨n, hn, rfl, rfl⟩

theorem firstLine_zero {source : Text} {nodes : List Node} {s : Statement}
    (h : (ofNodes source nodes)[0]? = some s) : s.firstLine = 1 := by
  obtain ⟨n, -, hfirst, -⟩ := exists_node h
  rw [hfirst, show leadRow 0 (withoutComments nodes) 0 = 0 from rfl, Nat.zero_min]
  rfl

/-- A statement begins on the line below the one before it or, if its node starts there, on the
last line of that one. -/
theorem firstLine_succ {source : Text} {nodes : List Node}
    (h : RowsInOrder (withoutComments nodes)) {i : Nat} {s u : Statement} {n : Node}
    (hs : (ofNodes source nodes)[i]? = some s) (hu : (ofNodes source nodes)[i + 1]? = some u)
    (hn : (withoutComments nodes)[i + 1]? = some n) :
    u.firstLine = s.lastLine + 1 ∨ (u.firstLine = s.lastLine ∧ u.firstLine = n.start.row + 1) := by
  obtain ⟨p, hp, -, hlast⟩ := exists_node hs
  obtain ⟨n', hn', hfirst, -⟩ := exists_node hu
  obtain rfl : n' = n := Option.some.inj (hn'.symm.trans hn)
  obtain ⟨hi, rfl⟩ := List.getElem?_eq_some_iff.1 hp
  obtain ⟨hi', rfl⟩ := List.getElem?_eq_some_iff.1 hn
  have hrows := List.pairwise_iff_getElem.1 h.apart i (i + 1) hi hi' (Nat.lt_succ_self i)
  rw [leadRow_succ hp] at hfirst
  omega

theorem firstLine_le_lastLine {source : Text} {nodes : List Node}
    (h : RowsInOrder (withoutComments nodes)) {s : Statement} (hs : s ∈ ofNodes source nodes) :
    s.firstLine ≤ s.lastLine := by
  obtain ⟨i, hi⟩ := List.mem_iff_getElem?.1 hs
  obtain ⟨n, hn, hfirst, hlast⟩ := exists_node hi
  have hrow := h.forward n (List.mem_of_getElem? hn)
  omega

theorem lastLine_le {source : Text} {nodes : List Node}
    (h : RowsInOrder (withoutComments nodes)) {i j : Nat} {s u : Statement} (hij : i ≤ j)
    (hs : (ofNodes source nodes)[i]? = some s) (hu : (ofNodes source nodes)[j]? = some u) :
    s.lastLine ≤ u.lastLine := by
  obtain ⟨a, ha, -, hs⟩ := exists_node hs
  obtain ⟨b, hb, -, hu⟩ := exists_node hu
  have hrow := h.lastRow_le hij ha hb
  omega

/-! ## All lines -/

/-- A line that a statement does not reach back to is on one of those before it. -/
theorem exists_covers {source : Text} {nodes : List Node}
    (h : RowsInOrder (withoutComments nodes)) {i : Nat} {s : Statement}
    (hs : (ofNodes source nodes)[i]? = some s) {line : Int} (hone : 1 ≤ line)
    (hlast : line ≤ s.lastLine) : ∃ u ∈ ofNodes source nodes, u.covers line = true := by
  induction i generalizing s with
  | zero =>
    have hfirst := firstLine_zero hs
    exact ⟨s, List.mem_of_getElem? hs, covers_iff.2 ⟨by omega, hlast⟩⟩
  | succ i ih =>
    obtain ⟨p, hp⟩ := exists_before hs
    by_cases hbefore : line ≤ p.lastLine
    · exact ih hp hbefore
    · obtain ⟨n, hn, -⟩ := exists_node hs
      have hfirst := firstLine_succ h hp hs hn
      exact ⟨s, List.mem_of_getElem? hs, covers_iff.2 ⟨by omega, hlast⟩⟩

theorem shared_line {source : Text} {nodes : List Node}
    (h : RowsInOrder (withoutComments nodes)) {i j : Nat} {s u : Statement} {n : Node}
    (hij : i < j) (hs : (ofNodes source nodes)[i]? = some s)
    (hu : (ofNodes source nodes)[j]? = some u) (hn : (withoutComments nodes)[j]? = some n)
    {line : Int} (hsline : s.covers line = true) (huline : u.covers line = true) :
    line = s.lastLine ∧ line = u.firstLine ∧ line = n.start.row + 1 := by
  obtain ⟨k, rfl⟩ := Nat.exists_eq_succ_of_ne_zero (Nat.ne_zero_of_lt hij)
  obtain ⟨p, hp⟩ := exists_before hu
  have hbefore := lastLine_le h (Nat.le_of_lt_succ hij) hs hp
  have hfirst := firstLine_succ h hp hu hn
  obtain ⟨-, hsline⟩ := covers_iff.1 hsline
  obtain ⟨huline, -⟩ := covers_iff.1 huline
  omega

/-- How the lines of statements lie: each node that is no comment has one, the first statement begins
on the first line, none ends before it begins or before the one in front of it ends, no line up to
the end of the last one is left out, and a line of two statements is where one ends and where the
node of the other starts. -/
structure Spans (nodes : List Node) (statements : List Statement) : Prop where
  length : statements.length = (withoutComments nodes).length
  first : ∀ s, statements[0]? = some s → s.firstLine = 1
  forward : ∀ s ∈ statements, s.firstLine ≤ s.lastLine
  nondecreasing : statements.Pairwise fun s u => s.lastLine ≤ u.lastLine
  covered : ∀ last, statements.getLast? = some last → ∀ line, 1 ≤ line → line ≤ last.lastLine →
    ∃ s ∈ statements, s.covers line = true
  shared : ∀ (i j : Nat) (s u : Statement), i < j → statements[i]? = some s →
    statements[j]? = some u → ∃ n, (withoutComments nodes)[j]? = some n ∧
      ∀ line, s.covers line = true → u.covers line = true →
        line = s.lastLine ∧ line = u.firstLine ∧ line = n.start.row + 1

theorem spans_of_rowsInOrder {nodes : List Node} (h : RowsInOrder (withoutComments nodes))
    (source : Text) : Spans nodes (ofNodes source nodes) where
  length := length_ofNodes source nodes
  first _ hs := firstLine_zero hs
  forward _ hs := firstLine_le_lastLine h hs
  nondecreasing := by
    refine List.pairwise_iff_getElem.2 fun i j hi hj hij => ?_
    exact lastLine_le h (Nat.le_of_lt hij) (List.getElem?_eq_getElem hi)
      (List.getElem?_eq_getElem hj)
  covered last hlast line hone hline := by
    rw [List.getLast?_eq_getElem?] at hlast
    exact exists_covers h hlast hone hline
  shared i j s u hij hs hu := by
    obtain ⟨n, hn, -⟩ := exists_node hu
    exact ⟨n, hn, fun _ hsline huline => shared_line h hij hs hu hn hsline huline⟩

/-- Nodes in document order make statements that leave no line out, so every meaningful changed
line up to the end of the last statement has a statement that it selects by position. -/
theorem ofNodes_spans (source : Text) {nodes : List Node} (h : InDocumentOrder nodes) :
    Spans nodes (ofNodes source nodes) ∧
      ∀ (hunks : List Hunk) (before after : List Statement) (l : ChangedLine) (last : Statement),
        l ∈ ChangedLine.ofHunks hunks → ChangedLine.isMeaningful l.content = true →
        l.side.pick before after = ofNodes source nodes →
        (ofNodes source nodes).getLast? = some last → 1 ≤ l.number → l.number ≤ last.lastLine →
        ∃ s ∈ ofNodes source nodes, s.covers l.number = true ∧
          s.text ∈ (Candidates.collect .position hunks before after).on l.side := by
  have hspans := spans_of_rowsInOrder h.rowsInOrder.withoutComments source
  refine ⟨hspans, ?_⟩
  intro hunks before after l last hl hmeaningful hside hlast hone hnumber
  obtain ⟨s, hs, hcovers⟩ := hspans.covered last hlast l.number hone hnumber
  refine ⟨s, hs, hcovers, ?_⟩
  rw [Candidates.on_collect, hside]
  exact Candidates.mem_texts_of_touches hs ⟨l, hl, rfl, hmeaningful, covers_iff.1 hcovers⟩

def TwoFunctions.hunk : Hunk :=
  ⟨"@@ -6 +5,0 @@".toList, ⟨6, 1⟩, ⟨5, 0⟩, "@@ -6 +5,0 @@\n-\x7d fn g() \x7b\x7d\n".toList⟩

theorem ofNodes_spans_twoFunctions :
    InDocumentOrder TwoFunctions.nodes ∧
      Spans TwoFunctions.nodes (ofNodes (TwoFunctions.source '1') TwoFunctions.nodes) ∧
      ∃ s ∈ ofNodes (TwoFunctions.source '1') TwoFunctions.nodes, s.covers 6 = true ∧
        s.text ∈ (Candidates.collect .position [TwoFunctions.hunk]
          (ofNodes (TwoFunctions.source '1') TwoFunctions.nodes) []).on .before := by
  have h : InDocumentOrder TwoFunctions.nodes := ⟨by decide +kernel, by decide +kernel⟩
  have hspans := ofNodes_spans (TwoFunctions.source '1') h
  have hlast : (ofNodes (TwoFunctions.source '1') TwoFunctions.nodes).getLast? =
      some ⟨2, "function".toList, " fn g() \x7b\x7d".toList, 6, 6⟩ := by decide +kernel
  refine ⟨h, hspans.1, ?_⟩
  exact hspans.2 [TwoFunctions.hunk] _ [] ⟨.before, "\x7d fn g() \x7b\x7d".toList, 6⟩ _
    (by decide +kernel) (by decide +kernel) rfl hlast (by decide) (by decide)

end Statement
end ChangePairs
