import ChangePairs.Proofs.Statement.Span
import ChangePairs.Proofs.Text.Line

/-!
Nodes as they lie in a source.  `AreLaidOut` says that nodes are pieces of a source, one behind
the other, and that their points are the rows and columns of the octets where they start and end.
Such nodes are in document order (`AreLaidOut.inDocumentOrder`), and their ends cut the source
between characters (`AreLaidOut.endsInOrder`).

The texts of their statements are cut by octets and their lines by rows.  The main statement,
`rawLine_infix_text`, brings the two together: a line strictly inside the lines of a statement
stands in its text as a whole.  It is a line of no other statement (`IsInside.eq_of_covers`).
-/

namespace ChangePairs

namespace Octets

/-- The row and the column of a place in a file: the line feeds before it, and the octets behind
the last of them. -/
def pointAt (octets : Octets) (n : Nat) : Point where
  row := (octets.take n).count 10
  column := ((octets.take n).reverse.takeWhile (· ≠ 10)).length

theorem takeWhile_of_feedless {more : Octets} (h : 10 ∉ more) (rest : Octets) :
    (more.reverse ++ rest).takeWhile (· ≠ 10) = more.reverse ++ rest.takeWhile (· ≠ 10) := by
  refine List.takeWhile_append_of_pos fun d hd => ?_
  rw [decide_eq_true_iff]
  rintro rfl
  exact h (List.mem_reverse.1 hd)

theorem pointAt_le (octets : Octets) {a b : Nat} (h : a ≤ b) :
    pointAt octets a ≤ pointAt octets b := by
  obtain ⟨more, hmore⟩ := List.take_prefix_take_left (l := octets) h
  show _ < _ ∨ _ = _ ∧ _ ≤ _
  simp only [pointAt]
  rw [← hmore, List.count_append, List.reverse_append]
  by_cases hfeed : 10 ∈ more
  · have hcount := List.count_pos_iff.2 hfeed
    omega
  · -- No row ends between the two places, so the column only grows.
    have hcount : more.count 10 = 0 := List.count_eq_zero.2 hfeed
    rw [takeWhile_of_feedless hfeed, List.length_append]
    omega

/-! ## Line feeds -/

theorem feed_mem_ofChar_iff {c : Char} : 10 ∈ ofChar c ↔ c = '\n' := by
  constructor
  · intro h
    rcases eq_or_of_mem_ofChar h with ⟨-, hc⟩ | hc
    · rw [← Char.ofNat_toNat c, ← hc]
    · omega
  · rintro rfl
    decide

theorem count_feed_encode (t : Text) : (encode t).count 10 = t.count '\n' := by
  induction t with
  | nil => rfl
  | cons c t ih =>
    rw [encode_cons, List.count_append, ih]
    by_cases hc : c = '\n'
    · rw [hc, List.count_cons_self, show (ofChar '\n').count 10 = 1 from rfl, Nat.add_comm]
    · rw [List.count_cons_of_ne hc, List.count_eq_zero.2 (mt feed_mem_ofChar_iff.1 hc),
        Nat.zero_add]

/-! ## Places between characters -/

theorem IsFront.row_pointAt {t front : Text} {n : Nat} (h : IsFront t n front) :
    (pointAt (encode t) n).row = front.count '\n' := by
  simp only [pointAt]
  rw [h.take_encode, count_feed_encode]

/-- At the start of a row nothing or a line feed comes before. -/
theorem IsFront.feed_of_column {t front : Text} {n : Nat} (h : IsFront t n front)
    (hcolumn : (pointAt (encode t) n).column = 0) : front = [] ∨ front.getLast? = some '\n' := by
  simp only [pointAt] at hcolumn
  rw [h.take_encode] at hcolumn
  rcases List.eq_nil_or_concat' front with rfl | ⟨init, c, rfl⟩
  · exact .inl rfl
  · right
    by_contra hlast
    have hc : c ≠ '\n' := by simpa using hlast
    have hpos : 0 < (ofChar c).length := by
      unfold ofChar
      dsimp only
      split_ifs <;> simp
    rw [encode_append, encode_cons, show encode [] = [] from rfl, List.append_nil,
      List.reverse_append, takeWhile_of_feedless (mt feed_mem_ofChar_iff.1 hc), List.length_append,
      List.length_reverse] at hcolumn
    omega

end Octets

/-! ## Nodes -/

namespace Node

open Octets (encode pointAt IsBoundary IsFront)

/-- Nodes of a source that lie behind an octet, one behind the other.  A node ends between two
characters, and its points are those of the octets where it starts and ends. -/
inductive AreLaidOut (source : Text) : Nat → List Node → Prop where
  | nil (octet : Nat) : AreLaidOut source octet []
  | cons {octet first : Nat} {n : Node} {rest : List Node} (behind : octet ≤ first)
    (forward : first ≤ n.endOctet) (start : n.start = pointAt (encode source) first)
    (stop : n.stop = pointAt (encode source) n.endOctet) (boundary : IsBoundary source n.endOctet)
    (more : AreLaidOut source n.endOctet rest) : AreLaidOut source octet (n :: rest)

namespace AreLaidOut

variable {source : Text} {octet : Nat} {nodes : List Node}

theorem stop_eq (h : AreLaidOut source octet nodes) :
    ∀ n ∈ nodes, n.stop = pointAt (encode source) n.endOctet ∧ IsBoundary source n.endOctet := by
  induction h with
  | nil => simp
  | cons _ _ _ stop boundary _ ih => exact List.forall_mem_cons.2 ⟨⟨stop, boundary⟩, ih⟩

theorem inDocumentOrder (h : AreLaidOut source octet nodes) : InDocumentOrder nodes := by
  induction h with
  | nil => exact ⟨by simp, .nil⟩
  | @cons octet first n rest _ forward start stop _ more ih =>
    constructor
    · refine List.forall_mem_cons.2 ⟨?_, ih.forward⟩
      rw [start, stop]
      exact Octets.pointAt_le _ forward
    · refine List.isChain_cons.2 ⟨?_, ih.apart⟩
      intro b hb
      cases more with
      | nil => simp at hb
      | cons behind _ start' =>
        obtain rfl := Option.some.inj hb
        rw [stop, start']
        exact Octets.pointAt_le _ behind

theorem le_endOctet (h : AreLaidOut source octet nodes) : ∀ n ∈ nodes, octet ≤ n.endOctet := by
  induction h with
  | nil => simp
  | cons behind forward _ _ _ _ ih =>
    refine List.forall_mem_cons.2 ⟨Nat.le_trans behind forward, ?_⟩
    intro n hn
    exact Nat.le_trans (Nat.le_trans behind forward) (ih n hn)

theorem nondecreasing (h : AreLaidOut source octet nodes) :
    nodes.Pairwise fun a b => a.endOctet ≤ b.endOctet := by
  induction h with
  | nil => exact .nil
  | cons _ _ _ _ _ more ih => exact List.pairwise_cons.2 ⟨more.le_endOctet, ih⟩

theorem endsInOrder (h : AreLaidOut source octet nodes) :
    Statement.EndsInOrder source (withoutComments nodes) where
  nondecreasing := h.nondecreasing.filter _
  boundary n hn := (h.stop_eq n (List.mem_filter.1 hn).1).2

end AreLaidOut

/-- The part of a source before the end of a node stops above the row below the node, and holds
all rows above the last one of the node. -/
theorem front_between {source front : Text} {n : Node}
    (hstop : n.stop = pointAt (encode source) n.endOctet) (hfront : IsFront source n.endOctet front)
    {k : Nat} :
    (n.lastRow < k → front <+: ((Text.lines source).take k).flatten) ∧
      (k ≤ n.lastRow → ((Text.lines source).take k).flatten <+: front) := by
  have hends : Text.EndsOnLine (Text.lines source) front := by
    refine (Text.areLines_lines source).endsOnLine ?_
    rw [Text.flatten_lines]
    exact hfront.isPrefix
  have hrow : n.stop.row = front.count '\n' := by rw [hstop, hfront.row_pointAt]
  unfold lastRow
  split
  · next hcolumn =>
    -- The node ends with the line feed of its last row.
    rw [hstop] at hcolumn
    have hwhole := hends.wholeLines (hfront.feed_of_column hcolumn.1)
    constructor
    · intro hk
      rw [← hwhole]
      exact Text.isPrefix_take_flatten _ (by omega)
    · intro hk
      exact (Text.isPrefix_take_flatten _ (by omega)).trans hends.linesBefore
  · constructor
    · intro hk
      exact hends.onLine.trans (Text.isPrefix_take_flatten _ (by omega))
    · intro hk
      exact (Text.isPrefix_take_flatten _ (by omega)).trans hends.linesBefore

end Node

namespace Statement

open Node (withoutComments AreLaidOut)
open Octets (IsFront)

/-- The text of a statement stands between the ends of two nodes. -/
theorem exists_fronts {source : Text} {nodes : List Node}
    (h : EndsInOrder source (withoutComments nodes)) {i : Nat} {s : Statement} {n : Node}
    (hs : (ofNodes source nodes)[i]? = some s) (hn : (withoutComments nodes)[i]? = some n) :
    ∃ front, IsFront source (leadOctet 0 (withoutComments nodes) i) front ∧
      IsFront source n.endOctet (front ++ s.text) := by
  obtain ⟨hlt, -⟩ := List.getElem?_eq_some_iff.1 hn
  have hfront := isFront_take_ofNodes h (Nat.le_of_lt hlt)
  have hnext := isFront_take_ofNodes h (Nat.succ_le_of_lt hlt)
  rw [leadOctet_succ hn, List.take_add_one, hs, Option.toList_some, List.flatMap_append,
    List.flatMap_singleton] at hnext
  exact ⟨_, hfront, hnext⟩

/-- Line `number` lies strictly inside statement `i`: on one of its lines, but neither on the last
of them nor on the last line of the statement before. -/
structure IsInside (statements : List Statement) (i : Nat) (s : Statement) (number : Int) :
    Prop where
  place : statements[i]? = some s
  firstLine_le : s.firstLine ≤ number
  lt_lastLine : number < s.lastLine
  ne_before : ∀ p, 0 < i → statements[i - 1]? = some p → number ≠ p.lastLine

theorem IsInside.covers {statements : List Statement} {i : Nat} {s : Statement} {number : Int}
    (h : IsInside statements i s number) : s.covers number = true :=
  covers_iff.2 ⟨h.firstLine_le, Int.le_of_lt h.lt_lastLine⟩

/-- A line strictly inside a statement is a line of no other one. -/
theorem IsInside.eq_of_covers {source : Text} {nodes : List Node} {i j : Nat} {s u : Statement}
    {number : Int} (h : Node.RowsInOrder (withoutComments nodes))
    (hinside : IsInside (ofNodes source nodes) i s number)
    (hu : (ofNodes source nodes)[j]? = some u) (hcovers : u.covers number = true) : j = i := by
  obtain ⟨n, hn, -⟩ := exists_node hinside.place
  rcases Nat.lt_trichotomy j i with hlt | rfl | hlt
  · -- The statement just before ends no earlier than the other one, hence on the line as well.
    exfalso
    obtain ⟨k, rfl⟩ := Nat.exists_eq_succ_of_ne_zero (Nat.ne_zero_of_lt hlt)
    obtain ⟨p, hp⟩ := exists_before hinside.place
    obtain ⟨hlast, hfirst, -⟩ := shared_line h hlt hu hinside.place hn hcovers hinside.covers
    have hle := lastLine_le h (Nat.le_of_lt_succ hlt) hu hp
    have hnext := firstLine_succ h hp hinside.place hn
    have hne := hinside.ne_before p (Nat.succ_pos k) hp
    omega
  · rfl
  · exfalso
    obtain ⟨m, hm, -⟩ := exists_node hu
    have hlast := (shared_line h hlt hinside.place hu hm hinside.covers hcovers).1
    have hinner := hinside.lt_lastLine
    omega

theorem IsInside.leadRow_le {source : Text} {nodes : List Node} {i k : Nat} {s : Statement}
    (h : Node.RowsInOrder (withoutComments nodes))
    (hinside : IsInside (ofNodes source nodes) i s (k + 1)) :
    leadRow 0 (withoutComments nodes) i ≤ k := by
  cases i with
  | zero => exact Nat.zero_le k
  | succ i =>
    obtain ⟨p, hp⟩ := exists_before hinside.place
    obtain ⟨n, hn, -⟩ := exists_node hinside.place
    obtain ⟨pn, hpn, -, hplast⟩ := exists_node hp
    have hfirst := firstLine_succ h hp hinside.place hn
    have hle := hinside.firstLine_le
    have hne := hinside.ne_before _ (Nat.succ_pos i) hp
    rw [leadRow_succ hpn]
    omega

theorem stop_eq_of_getElem? {source : Text} {nodes : List Node} (h : AreLaidOut source 0 nodes)
    {i : Nat} {n : Node} (hn : (withoutComments nodes)[i]? = some n) :
    n.stop = Octets.pointAt (Octets.encode source) n.endOctet :=
  (h.stop_eq n (List.mem_filter.1 (List.mem_of_getElem? hn)).1).1

/-- What comes before the text of a statement ends above the rows that are its own. -/
theorem front_isPrefix_lines {source front : Text} {nodes : List Node}
    (h : AreLaidOut source 0 nodes) {i k : Nat} {n : Node}
    (hn : (withoutComments nodes)[i]? = some n)
    (hfront : IsFront source (leadOctet 0 (withoutComments nodes) i) front)
    (hlead : leadRow 0 (withoutComments nodes) i ≤ k) :
    front <+: ((Text.lines source).take k).flatten := by
  cases i with
  | zero =>
    rw [hfront.unique (.nil source)]
    exact List.nil_prefix
  | succ i =>
    obtain ⟨p, hp⟩ := exists_before hn
    rw [leadOctet_succ hp] at hfront
    rw [leadRow_succ hp] at hlead
    exact (Node.front_between (stop_eq_of_getElem? h hp) hfront).1 hlead

/-- A line strictly inside a statement stands in its text as a whole, with its line feed. -/
theorem rawLine_infix_text {source : Text} {nodes : List Node} (h : AreLaidOut source 0 nodes)
    {i k : Nat} {s : Statement} {raw : Text}
    (hinside : IsInside (ofNodes source nodes) i s (k + 1))
    (hraw : (Text.lines source)[k]? = some raw) : raw <:+: s.text := by
  have hlead := hinside.leadRow_le h.inDocumentOrder.rowsInOrder.withoutComments
  have hlast := hinside.lt_lastLine
  obtain ⟨n, hn, -, hslast⟩ := exists_node hinside.place
  obtain ⟨front, hfront, hnext⟩ := exists_fronts h.endsInOrder hinside.place hn
  have hbegin := front_isPrefix_lines h hn hfront hlead
  have hend : ((Text.lines source).take (k + 1)).flatten <+: front ++ s.text :=
    (Node.front_between (stop_eq_of_getElem? h hn) hnext).2 (by omega)
  exact Text.infix_of_between hraw hbegin hend

theorem line_infix_text {source : Text} {nodes : List Node} (h : AreLaidOut source 0 nodes)
    {i k : Nat} {s : Statement} {line : Text}
    (hinside : IsInside (ofNodes source nodes) i s (k + 1))
    (hline : (Text.bareLines source)[k]? = some line) : line <:+: s.text := by
  unfold Text.bareLines at hline
  rw [List.getElem?_map] at hline
  obtain ⟨raw, hraw, rfl⟩ := Option.map_eq_some_iff.1 hline
  exact (Text.isPrefix_chompLine raw).isInfix.trans (rawLine_infix_text h hinside hraw)

end Statement
end ChangePairs
