import ChangePairs.Proofs.Text.Utf8
import ChangePairs.Statement.Outline

/-!
The statements of a file one by one.  Comments make no statement and move nothing, so statement
`i` is made of node `i` among the others and of where the node before it ended
(`getElem?_ofNodes`).  All that is said of statements elsewhere follows from that.

The main statement, `ofNodes_tiles`, says that the texts of the statements are the source cut
apart at the ends of the nodes, with nothing lost and nothing told twice.
-/

namespace ChangePairs

def Node.withoutComments (nodes : List Node) : List Node := nodes.filter fun n => !n.isComment

namespace Statement

open Node (withoutComments)
open Octets (IsFront IsBoundary)

/-- The statement of a node, where the text before it ends at `octet` and the lines of the
statement before it end above `row`. -/
def ofNode (source : Octets) (index octet row : Nat) (n : Node) : Statement where
  index := index
  kind := n.kind
  text := Octets.decode ((source.take n.endOctet).drop octet)
  firstLine := min row n.start.row + 1
  lastLine := n.lastRow + 1

/-- Where the text before node `i` ends. -/
def leadOctet (octet : Nat) (nodes : List Node) (i : Nat) : Nat :=
  (octet :: nodes.map Node.endOctet).getD i 0

/-- The row below the lines of the statement before node `i`. -/
def leadRow (row : Nat) (nodes : List Node) (i : Nat) : Nat :=
  (row :: nodes.map fun n => n.lastRow + 1).getD i 0

theorem leadOctet_succ {nodes : List Node} {i : Nat} {p : Node} (h : nodes[i]? = some p)
    (octet : Nat) : leadOctet octet nodes (i + 1) = p.endOctet := by
  simp [leadOctet, h]

theorem leadRow_succ {nodes : List Node} {i : Nat} {p : Node} (h : nodes[i]? = some p)
    (row : Nat) : leadRow row nodes (i + 1) = p.lastRow + 1 := by
  simp [leadRow, h]

theorem exists_before {α : Type} {l : List α} {i : Nat} {a : α} (h : l[i + 1]? = some a) :
    ∃ b, l[i]? = some b := by
  obtain ⟨hlt, -⟩ := List.getElem?_eq_some_iff.1 h
  exact ⟨_, List.getElem?_eq_getElem (Nat.lt_of_succ_lt hlt)⟩

/-! ## One by one -/

theorem ofNodesFrom_cons {n : Node} (h : n.isComment = false) (source : Octets)
    (index octet row : Nat) (nodes : List Node) :
    ofNodesFrom source index octet row (n :: nodes) =
      ofNode source index octet row n ::
        ofNodesFrom source (index + 1) n.endOctet (n.lastRow + 1) nodes := by
  simp [ofNodesFrom, ofNode, h]

theorem ofNodesFrom_withoutComments (source : Octets) (index octet row : Nat)
    (nodes : List Node) :
    ofNodesFrom source index octet row (withoutComments nodes) =
      ofNodesFrom source index octet row nodes := by
  induction nodes generalizing index octet row with
  | nil => rfl
  | cons n nodes ih =>
    unfold withoutComments at ih ⊢
    cases h : n.isComment with
    | true =>
      rw [List.filter_cons_of_neg (by simp [h]), ih]
      simp [ofNodesFrom, h]
    | false => rw [List.filter_cons_of_pos (by simp [h]), ofNodesFrom_cons h, ofNodesFrom_cons h, ih]

theorem getElem?_ofNodesFrom {nodes : List Node} (h : ∀ n ∈ nodes, n.isComment = false)
    (source : Octets) (index octet row i : Nat) :
    (ofNodesFrom source index octet row nodes)[i]? = nodes[i]?.map
      (ofNode source (index + i) (leadOctet octet nodes i) (leadRow row nodes i)) := by
  induction nodes generalizing index octet row i with
  | nil => rfl
  | cons n nodes ih =>
    have hnodes : ∀ x ∈ nodes, x.isComment = false := fun x hx => h x (List.mem_cons_of_mem n hx)
    rw [ofNodesFrom_cons (h n List.mem_cons_self)]
    cases i with
    | zero => rfl
    | succ i =>
      -- What node `i` of the others follows is what node `i + 1` of all follows.
      have hindex : index + 1 + i = index + (i + 1) := by omega
      rw [List.getElem?_cons_succ, List.getElem?_cons_succ, ih hnodes, hindex]
      rfl

/-- Statement `i` is made of node `i` and of where the node before it ended. -/
theorem getElem?_ofNodes (source : Text) (nodes : List Node) (i : Nat) :
    (ofNodes source nodes)[i]? = (withoutComments nodes)[i]?.map
      (ofNode (Octets.encode source) i (leadOctet 0 (withoutComments nodes) i)
        (leadRow 0 (withoutComments nodes) i)) := by
  have hcode : ∀ n ∈ withoutComments nodes, n.isComment = false := by
    intro n hn
    simpa using (List.mem_filter.1 hn).2
  unfold ofNodes
  rw [← ofNodesFrom_withoutComments, getElem?_ofNodesFrom hcode, Nat.zero_add]

/-- What a statement has from its node alone. -/
theorem map_ofNodes {α : Type} {f : Statement → α} {g : Node → α}
    (h : ∀ source index octet row n, f (ofNode source index octet row n) = g n)
    (source : Text) (nodes : List Node) :
    (ofNodes source nodes).map f = (withoutComments nodes).map g := by
  refine List.ext_getElem? fun i => ?_
  rw [List.getElem?_map, List.getElem?_map, getElem?_ofNodes, Option.map_map]
  congr 1
  funext n
  exact h _ _ _ _ n

theorem length_ofNodes (source : Text) (nodes : List Node) :
    (ofNodes source nodes).length = (withoutComments nodes).length := by
  have hkinds := map_ofNodes (f := kind) (fun _ _ _ _ _ => rfl) source nodes
  simpa using congrArg List.length hkinds

theorem map_index_ofNodes (source : Text) (nodes : List Node) :
    (ofNodes source nodes).map index =
      (List.range (withoutComments nodes).length).map Int.ofNat := by
  refine List.ext_getElem? fun i => ?_
  rw [List.getElem?_map, List.getElem?_map, getElem?_ofNodes, Option.map_map]
  by_cases hi : i < (withoutComments nodes).length
  · rw [List.getElem?_range hi, List.getElem?_eq_getElem hi]
    rfl
  · have hlen := Nat.le_of_not_lt hi
    rw [List.getElem?_eq_none hlen, List.getElem?_eq_none (by simpa using hlen)]
    rfl

/-! ## Texts -/

/-- Nodes that end one after the other, each between two characters of the source. -/
structure EndsInOrder (source : Text) (nodes : List Node) : Prop where
  nondecreasing : nodes.Pairwise fun a b => a.endOctet ≤ b.endOctet
  boundary : ∀ n ∈ nodes, IsBoundary source n.endOctet

theorem EndsInOrder.leadOctet_le {source : Text} {nodes : List Node}
    (h : EndsInOrder source nodes) {i : Nat} {n : Node} (hn : nodes[i]? = some n) :
    leadOctet 0 nodes i ≤ n.endOctet := by
  cases i with
  | zero => exact Nat.zero_le _
  | succ i =>
    obtain ⟨p, hp⟩ := exists_before hn
    obtain ⟨hlt, rfl⟩ := List.getElem?_eq_some_iff.1 hn
    obtain ⟨hi, rfl⟩ := List.getElem?_eq_some_iff.1 hp
    rw [leadOctet_succ hp]
    exact List.pairwise_iff_getElem.1 h.nondecreasing i (i + 1) hi hlt (Nat.lt_succ_self i)

/-- The texts of the first statements are the source up to the end of the last of their nodes. -/
theorem isFront_take_ofNodes {source : Text} {nodes : List Node}
    (h : EndsInOrder source (withoutComments nodes)) {i : Nat}
    (hi : i ≤ (withoutComments nodes).length) :
    IsFront source (leadOctet 0 (withoutComments nodes) i)
      (((ofNodes source nodes).take i).flatMap text) := by
  induction i with
  | zero => exact IsFront.nil source
  | succ i ih =>
    have hn := List.getElem?_eq_getElem (Nat.lt_of_succ_le hi)
    have hs := getElem?_ofNodes source nodes i
    rw [hn, Option.map_some] at hs
    -- The text of statement `i` is what stands between the ends of two nodes.
    obtain ⟨front, hfront⟩ := h.boundary _ (List.mem_of_getElem? hn)
    have happend := (ih (by omega)).append_decode hfront (h.leadOctet_le hn)
    rw [List.take_add_one, hs, Option.toList_some, List.flatMap_append, List.flatMap_singleton,
      leadOctet_succ hn]
    exact happend ▸ hfront

/-- How statements relate to the source and its nodes: one statement for each node that is no
comment, numbered from 0 on; the texts up to any statement are the source up to the end of its
node, and all texts are the source up to the end of the last node. -/
structure Tiles (source : Text) (nodes : List Node) (statements : List Statement) : Prop where
  numbered : statements.map index = (List.range (withoutComments nodes).length).map Int.ofNat
  made : statements.map (fun s => (s.kind, s.lastLine)) =
    (withoutComments nodes).map fun n => (n.kind, (n.lastRow : Int) + 1)
  upTo : ∀ i n, (withoutComments nodes)[i]? = some n →
    IsFront source n.endOctet ((statements.take (i + 1)).flatMap text)
  whole : IsFront source (((withoutComments nodes).getLast?.map Node.endOctet).getD 0)
    (statements.flatMap text)

theorem ofNodes_tiles {source : Text} {nodes : List Node}
    (h : EndsInOrder source (withoutComments nodes)) :
    Tiles source nodes (ofNodes source nodes) := by
  refine ⟨map_index_ofNodes source nodes, map_ofNodes (fun _ _ _ _ _ => rfl) source nodes, ?_, ?_⟩
  · intro i n hn
    obtain ⟨hlt, -⟩ := List.getElem?_eq_some_iff.1 hn
    have hfront := isFront_take_ofNodes h (Nat.succ_le_of_lt hlt)
    rwa [leadOctet_succ hn] at hfront
  · have hfront := isFront_take_ofNodes h (Nat.le_refl _)
    rw [← length_ofNodes source nodes, List.take_length, length_ofNodes] at hfront
    rcases List.eq_nil_or_concat (withoutComments nodes) with hnil | ⟨front, last, hlast⟩
    · rw [hnil] at hfront ⊢
      exact hfront
    · rw [hlast] at hfront ⊢
      simpa [leadOctet] using hfront

/-! ## A source with two functions

A comment stands before the first function, whose last line is the first line of the second one,
and some characters have more than one octet. -/

namespace TwoFunctions

def source (digit : Char) : Text :=
  "import a\n\n// ö\nfn f() \x7b\n  x = é".toList ++ digit :: "\n\x7d fn g() \x7b\x7d\n".toList

def nodes : List Node :=
  [⟨"import".toList, ⟨0, 0⟩, ⟨0, 8⟩, 8⟩, ⟨"line_comment".toList, ⟨2, 0⟩, ⟨2, 5⟩, 15⟩,
    ⟨"function".toList, ⟨3, 0⟩, ⟨5, 1⟩, 36⟩, ⟨"function".toList, ⟨5, 2⟩, ⟨5, 11⟩, 46⟩]

end TwoFunctions

theorem ofNodes_tiles_twoFunctions :
    EndsInOrder (TwoFunctions.source '1') (withoutComments TwoFunctions.nodes) ∧
      Tiles (TwoFunctions.source '1') TwoFunctions.nodes
        (ofNodes (TwoFunctions.source '1') TwoFunctions.nodes) ∧
      (ofNodes (TwoFunctions.source '1') TwoFunctions.nodes).map text =
        ["import a".toList, "\n\n// ö\nfn f() \x7b\n  x = é1\n\x7d".toList,
          " fn g() \x7b\x7d".toList] := by
  have h : EndsInOrder (TwoFunctions.source '1') (withoutComments TwoFunctions.nodes) := by
    refine ⟨by decide +kernel, ?_⟩
    intro n hn
    have hn : n ∈ [TwoFunctions.nodes[0], TwoFunctions.nodes[2], TwoFunctions.nodes[3]] := hn
    simp only [List.mem_cons, List.not_mem_nil, or_false] at hn
    rcases hn with rfl | rfl | rfl
    · exact ⟨(TwoFunctions.source '1').take 8, List.take_prefix _ _, by decide +kernel⟩
    · exact ⟨(TwoFunctions.source '1').take 34, List.take_prefix _ _, by decide +kernel⟩
    · exact ⟨(TwoFunctions.source '1').take 44, List.take_prefix _ _, by decide +kernel⟩
  exact ⟨h, ofNodes_tiles h, by decide +kernel⟩

end Statement
end ChangePairs
