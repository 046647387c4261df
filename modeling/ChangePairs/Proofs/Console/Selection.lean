import Mathlib.Data.List.Sort
import ChangePairs.Console.Selection
import ChangePairs.Proofs.Pairing

/-!
Which files an answer chooses.  An answer is valid if it stands for all files, or if its parts are
numbers of files and there is one at least.  The first valid answer decides; what was answered
before is refused and what comes after is not read.

An answer counts by the set of positions that it names.  The chosen files stand at just these, each
once and in the order of the list (`IsSelection`), and never are they none at all.

The main statement is `run_first_valid`.
-/

namespace ChangePairs
namespace Selection

/-! ## Answers -/

def choiceOf (answer : Text) : Text := Text.lower (Text.trim answer)

def parts (answer : Text) : List Text :=
  (Text.fields ',' (choiceOf answer)).filter (!Text.allBlank ·)

def IsAll (answer : Text) : Prop :=
  choiceOf answer = [] ∨ choiceOf answer = "a".toList ∨ choiceOf answer = "all".toList

instance (answer : Text) : Decidable (IsAll answer) := inferInstanceAs (Decidable (_ ∨ _))

/-- The answer is one for a list of `count` files. -/
inductive IsValid (count : Nat) (answer : Text) : Prop where
  | all (h : IsAll answer)
  | numbers (hne : parts answer ≠ [])
      (h : ∀ part ∈ parts answer, ∃ n : Int, readInteger part = .ok n ∧ 1 ≤ n ∧ n ≤ count)

/-- The positions in a list of `count` files, counted from 1, that an answer names. -/
def Names (count : Nat) (answer : Text) (n : Nat) : Prop :=
  IsAll answer ∧ 1 ≤ n ∧ n ≤ count ∨
    ¬ IsAll answer ∧ ∃ part ∈ parts answer, readInteger part = .ok n

/-- The paths at the positions of which `p` holds, each once and in the order of the list. -/
def IsSelection (paths : List Path) (p : Nat → Prop) (picked : List Path) : Prop :=
  ∃ positions : List Nat, positions.Pairwise (· < ·) ∧ (∀ n, n ∈ positions ↔ p n) ∧
    List.Forall₂ (fun n path => 1 ≤ n ∧ paths[n - 1]? = some path) positions picked

theorem IsSelection.unique {paths picked picked' : List Path} {p : Nat → Prop}
    (h : IsSelection paths p picked) (h' : IsSelection paths p picked') : picked = picked' := by
  obtain ⟨positions, hsorted, hmem, hat⟩ := h
  obtain ⟨positions', hsorted', hmem', hat'⟩ := h'
  have hsame : positions = positions' :=
    hsorted.sortedLT.eq_of_mem_iff hsorted'.sortedLT fun n => (hmem n).trans (hmem' n).symm
  subst hsame
  apply List.right_unique_forall₂' _ hat hat'
  intro n path path' hn hn'
  exact Option.some.inj (hn.2.symm.trans hn'.2)

theorem IsSelection.congr {paths picked : List Path} {p q : Nat → Prop}
    (h : IsSelection paths p picked) (hpq : ∀ n, p n ↔ q n) : IsSelection paths q picked := by
  obtain ⟨positions, hsorted, hmem, hat⟩ := h
  exact ⟨positions, hsorted, fun n => (hmem n).trans (hpq n), hat⟩

theorem IsSelection.ne_nil {paths picked : List Path} {p : Nat → Prop}
    (h : IsSelection paths p picked) {n : Nat} (hn : p n) : picked ≠ [] := by
  obtain ⟨positions, -, hmem, hat⟩ := h
  rintro rfl
  obtain rfl := List.forall₂_nil_right_iff.1 hat
  exact List.not_mem_nil ((hmem n).2 hn)

/-- A filter on the positions of a list makes a selection. -/
theorem isSelection_filter (paths : List Path) (q : Nat → Bool) :
    IsSelection paths (fun n => (1 ≤ n ∧ n ≤ paths.length) ∧ q n = true)
      (((paths.zipIdx 1).filter fun e => q e.2).map Prod.fst) := by
  refine ⟨((paths.zipIdx 1).filter fun e => q e.2).map Prod.snd, ?_, ?_, ?_⟩
  · have hall : ((paths.zipIdx 1).map Prod.snd).Pairwise (· < ·) := by
      rw [List.zipIdx_map_snd]
      exact List.pairwise_lt_range'
    exact hall.sublist (List.filter_sublist.map _)
  · intro n
    simp only [List.mem_map, List.mem_filter, List.mem_zipIdx_iff_le_and_getElem?_sub]
    constructor
    · rintro ⟨e, ⟨⟨hle, hget⟩, hq⟩, rfl⟩
      have hlt := (List.getElem?_eq_some_iff.1 hget).1
      exact ⟨⟨hle, by omega⟩, hq⟩
    · rintro ⟨⟨hle, hlength⟩, hq⟩
      have hlt : n - 1 < paths.length := by omega
      exact ⟨(paths[n - 1], n), ⟨⟨hle, List.getElem?_eq_getElem hlt⟩, hq⟩, rfl⟩
  · rw [List.forall₂_map_left_iff, List.forall₂_map_right_iff, List.forall₂_same]
    intro e he
    exact List.mem_zipIdx_iff_le_and_getElem?_sub.1 (List.mem_filter.1 he).1

/-! ## Choosing -/

theorem contains_everything_iff {answer : Text} :
    everything.contains (choiceOf answer) = true ↔ IsAll answer := by
  simp [everything, IsAll]

/-- The parts are the numbers, one by one. -/
def Reads (texts : List Text) (numbers : List Int) : Prop :=
  List.Forall₂ (fun part n => readInteger part = .ok n) texts numbers

theorem numbers?_eq_some_iff {answer : Text} {numbers : List Int} :
    numbers? (choiceOf answer) = some numbers ↔ Reads (parts answer) numbers := by
  have hread : ∀ part (n : Int),
      (readInteger part).toOption = some n ↔ readInteger part = .ok n := by
    intro part n
    cases readInteger part with
    | ok m => simp [Except.toOption]
    | error e => exact iff_of_false nofun nofun
  unfold numbers? Reads
  rw [mapM_eq_some_iff]
  simp only [hread]
  rfl

/-- Numbers name themselves. -/
theorem names_iff_mem {count : Nat} {answer : Text} {numbers : List Int} (hall : ¬ IsAll answer)
    (hread : Reads (parts answer) numbers) {n : Nat} :
    Names count answer n ↔ (n : Int) ∈ numbers := by
  constructor
  · rintro (⟨h, -⟩ | ⟨-, part, hpart, hn⟩)
    · exact absurd h hall
    · obtain ⟨m, hm, hpart⟩ := exists_of_forall₂ hread hpart
      obtain rfl : m = n := Except.ok.inj (hpart.symm.trans hn)
      exact hm
  · intro hn
    obtain ⟨part, hpart, hread⟩ := exists_of_forall₂ hread.flip hn
    exact .inr ⟨hall, part, hpart, hread⟩

/-- There are numbers, and all of them are positions in a list of `count` files. -/
def InRange (count : Nat) (numbers : List Int) : Prop :=
  numbers ≠ [] ∧ ∀ n ∈ numbers, 1 ≤ n ∧ n ≤ count

instance (count : Nat) (numbers : List Int) : Decidable (InRange count numbers) :=
  inferInstanceAs (Decidable (_ ∧ _))

theorem inRange_iff {count : Nat} {numbers : List Int} :
    (!numbers.isEmpty && numbers.all fun n => 1 ≤ n && n ≤ count) = true ↔
      InRange count numbers := by
  simp [InRange]

section

variable {answer : Text} (paths : List Path)

theorem choose_of_isAll (hall : IsAll answer) : choose paths answer = .ok paths :=
  if_pos (contains_everything_iff.2 hall)

theorem choose_of_unreadable (hall : ¬ IsAll answer) (h : numbers? (choiceOf answer) = none) :
    choose paths answer = .error .notNumbers := by
  have hcontains := mt contains_everything_iff.1 hall
  unfold choiceOf at h hcontains
  unfold choose
  dsimp only
  rw [if_neg hcontains, h]

theorem choose_of_numbers {numbers : List Int} (hall : ¬ IsAll answer)
    (h : numbers? (choiceOf answer) = some numbers) :
    choose paths answer = if InRange paths.length numbers then .ok (atPositions paths numbers)
      else .error (.outOfRange paths.length) := by
  have hcontains := mt contains_everything_iff.1 hall
  unfold choiceOf at h hcontains
  unfold choose
  dsimp only
  rw [if_neg hcontains, h]
  exact if_congr inRange_iff rfl rfl

end

/-- What there is to an answer that is not refused. -/
theorem choose_eq_ok_iff {paths picked : List Path} {answer : Text} :
    choose paths answer = .ok picked ↔
      IsAll answer ∧ paths = picked ∨
        ¬ IsAll answer ∧ ∃ numbers, Reads (parts answer) numbers ∧
          InRange paths.length numbers ∧ atPositions paths numbers = picked := by
  by_cases hall : IsAll answer
  · rw [choose_of_isAll paths hall, Except.ok.injEq]
    simp only [hall, not_true_eq_false, false_and, or_false, true_and]
  · simp only [hall, not_false_eq_true, false_and, false_or, true_and, ← numbers?_eq_some_iff]
    cases h : numbers? (choiceOf answer) with
    | none => simp [choose_of_unreadable paths hall h]
    | some numbers =>
      rw [choose_of_numbers paths hall h]
      simp only [Option.some.injEq, exists_eq_left']
      by_cases hrange : InRange paths.length numbers
      · rw [if_pos hrange, Except.ok.injEq, and_iff_right hrange]
      · simp [hrange]

theorem isValid_iff {paths : List Path} {answer : Text} :
    IsValid paths.length answer ↔ ∃ picked, choose paths answer = .ok picked := by
  constructor
  · intro h
    by_cases hall : IsAll answer
    · exact ⟨paths, choose_eq_ok_iff.2 (.inl ⟨hall, rfl⟩)⟩
    · cases h with
      | all h => exact absurd h hall
      | numbers hne h =>
        obtain ⟨numbers, hread⟩ := exists_forall₂ h
        have hnumbers : Reads (parts answer) numbers := hread.imp fun _ _ h => h.1
        refine ⟨_, choose_eq_ok_iff.2 (.inr ⟨hall, numbers, hnumbers, ⟨?_, ?_⟩, rfl⟩)⟩
        · rintro rfl
          exact hne (List.forall₂_nil_right_iff.1 hread)
        · intro n hn
          obtain ⟨part, -, -, hrange⟩ := exists_of_forall₂ hread.flip hn
          exact hrange
  · rintro ⟨picked, h⟩
    rcases choose_eq_ok_iff.1 h with ⟨hall, -⟩ | ⟨-, numbers, hread, ⟨hne, hrange⟩, -⟩
    · exact .all hall
    · refine .numbers ?_ fun part hpart => ?_
      · intro hnil
        rw [hnil] at hread
        exact hne (List.forall₂_nil_left_iff.1 hread)
      · obtain ⟨n, hn, hpart⟩ := exists_of_forall₂ hread hpart
        exact ⟨n, hpart, hrange n hn⟩

theorem isSelection_of_choose {paths picked : List Path} {answer : Text}
    (h : choose paths answer = .ok picked) :
    IsSelection paths (Names paths.length answer) picked := by
  rcases choose_eq_ok_iff.1 h with ⟨hall, rfl⟩ | ⟨hall, numbers, hread, ⟨-, hrange⟩, rfl⟩
  · have hpaths := isSelection_filter paths fun _ => true
    rw [List.filter_true, List.zipIdx_map_fst] at hpaths
    apply hpaths.congr
    intro n
    simp [Names, hall]
  · apply (isSelection_filter paths fun n => numbers.contains (n : Int)).congr
    intro n
    rw [names_iff_mem hall hread, List.contains_iff_mem]
    constructor
    · exact fun h => h.2
    · intro hn
      have hbounds := hrange n hn
      exact ⟨by omega, hn⟩

theorem exists_names {count : Nat} {answer : Text} (h : IsValid count answer) (hcount : count ≠ 0) :
    ∃ n, Names count answer n := by
  by_cases hall : IsAll answer
  · exact ⟨1, .inl ⟨hall, Nat.le_refl 1, by omega⟩⟩
  · cases h with
    | all h => exact absurd h hall
    | numbers hne h =>
      obtain ⟨part, rest, hparts⟩ := List.exists_cons_of_ne_nil hne
      have hpart : part ∈ parts answer := hparts ▸ List.mem_cons_self
      obtain ⟨n, hread, hfirst, -⟩ := h part hpart
      obtain ⟨m, rfl⟩ := Int.eq_ofNat_of_zero_le (by omega : 0 ≤ n)
      exact ⟨m, .inr ⟨hall, part, hpart, hread⟩⟩

/-! ## Asking -/

theorem ask_of_choose {paths picked : List Path} {answer : Text}
    (h : choose paths answer = .ok picked) (later : List Text) :
    ask paths (answer :: later) = ⟨some picked, question⟩ := by
  rw [ask, h]

/-- A refused answer is followed by the next question. -/
theorem ask_of_not_isValid {paths : List Path} {answer : Text}
    (h : ¬ IsValid paths.length answer) :
    ∃ shown, ∀ later, ask paths (answer :: later) =
      ⟨(ask paths later).picked, shown ++ (ask paths later).transcript⟩ := by
  cases hchoose : choose paths answer with
  | ok picked => exact absurd (isValid_iff.2 ⟨picked, hchoose⟩) h
  | error refusal =>
    refine ⟨question ++ Console.line refusal.message, fun later => ?_⟩
    rw [ask, hchoose]

theorem ask_append {paths : List Path} {before : List Text}
    (h : ∀ answer ∈ before, ¬ IsValid paths.length answer) :
    ∃ shown, ∀ later, ask paths (before ++ later) =
      ⟨(ask paths later).picked, shown ++ (ask paths later).transcript⟩ := by
  induction before with
  | nil => exact ⟨[], fun _ => rfl⟩
  | cons answer before ih =>
    rw [List.forall_mem_cons] at h
    obtain ⟨first, hfirst⟩ := ask_of_not_isValid h.1
    obtain ⟨shown, hshown⟩ := ih h.2
    refine ⟨first ++ shown, fun later => ?_⟩
    rw [List.cons_append, hfirst, hshown, List.append_assoc]

theorem picked_ask_eq_none_iff {paths : List Path} {answers : List Text} :
    (ask paths answers).picked = none ↔ ∀ answer ∈ answers, ¬ IsValid paths.length answer := by
  induction answers with
  | nil => exact iff_of_true rfl nofun
  | cons answer answers ih =>
    rw [List.forall_mem_cons]
    by_cases h : IsValid paths.length answer
    · obtain ⟨picked, hchoose⟩ := isValid_iff.1 h
      rw [ask_of_choose hchoose]
      exact iff_of_false nofun fun hall => hall.1 h
    · obtain ⟨shown, hask⟩ := ask_of_not_isValid h
      rw [hask, and_iff_right h]
      exact ih

/-- The first valid answer decides alone, and by nothing but the positions that it names. -/
theorem run_first_valid {paths : List Path} (hpaths : paths ≠ []) :
    (∀ answers, (run paths answers).picked = none ↔
      ∀ answer ∈ answers, ¬ IsValid paths.length answer) ∧
    (∀ before answer after, (∀ refused ∈ before, ¬ IsValid paths.length refused) →
      IsValid paths.length answer →
      run paths (before ++ answer :: after) = run paths (before ++ [answer]) ∧
      ∃ picked, (run paths (before ++ answer :: after)).picked = some picked ∧
        (run paths [answer]).picked = some picked ∧ picked ≠ [] ∧
        IsSelection paths (Names paths.length answer) picked) ∧
    ∀ answer answer', IsValid paths.length answer → IsValid paths.length answer' →
      (∀ n, Names paths.length answer n ↔ Names paths.length answer' n) →
      (run paths [answer]).picked = (run paths [answer']).picked := by
  refine ⟨fun _ => picked_ask_eq_none_iff, ?_, ?_⟩
  · intro before answer after hbefore hvalid
    obtain ⟨picked, hchoose⟩ := isValid_iff.1 hvalid
    obtain ⟨shown, hask⟩ := ask_append hbefore
    obtain ⟨n, hn⟩ := exists_names hvalid (by simpa using hpaths)
    have hselection := isSelection_of_choose hchoose
    refine ⟨?_, picked, ?_, ?_, hselection.ne_nil hn, hselection⟩
    · unfold run
      rw [hask, hask, ask_of_choose hchoose, ask_of_choose hchoose]
    · show (ask paths (before ++ answer :: after)).picked = _
      rw [hask, ask_of_choose hchoose]
    · show (ask paths [answer]).picked = _
      rw [ask_of_choose hchoose]
  · intro answer answer' hvalid hvalid' hsame
    obtain ⟨picked, hchoose⟩ := isValid_iff.1 hvalid
    obtain ⟨picked', hchoose'⟩ := isValid_iff.1 hvalid'
    have hpicked : picked = picked' :=
      ((isSelection_of_choose hchoose).congr hsame).unique (isSelection_of_choose hchoose')
    show (ask paths [answer]).picked = (ask paths [answer']).picked
    rw [ask_of_choose hchoose, ask_of_choose hchoose', hpicked]

/-! ## An answer with signs and zeros

It comes after one that is out of range and one that is no number.  It names the positions 1
and 3. -/

namespace Signed

def paths : List Path := ["/r/a.ts".toList, "/r/b.ts".toList, "/r/c.ts".toList]

def refused : List Text := ["4".toList, "one, 3".toList]

def answer : Text := " 03,+1,, 3\t".toList

def later : List Text := ["2".toList]

def plain : Text := "1,3".toList

def picked : List Path := ["/r/a.ts".toList, "/r/c.ts".toList]

theorem names_answer_iff (n : Nat) : Names 3 answer n ↔ Names 3 plain n := by
  have hanswer : Reads (parts answer) [3, 1, 3] := .cons rfl (.cons rfl (.cons rfl .nil))
  have hplain : Reads (parts plain) [1, 3] := .cons rfl (.cons rfl .nil)
  rw [names_iff_mem (by decide) hanswer, names_iff_mem (by decide) hplain]
  simp only [List.mem_cons, List.not_mem_nil, or_false]
  omega

end Signed

theorem run_first_valid_signed :
    Signed.paths ≠ [] ∧
      (∀ refused ∈ Signed.refused, ¬ IsValid Signed.paths.length refused) ∧
      IsValid Signed.paths.length Signed.answer ∧ IsValid Signed.paths.length Signed.plain ∧
      (∀ n, Names Signed.paths.length Signed.answer n ↔ Names Signed.paths.length Signed.plain n) ∧
      (run Signed.paths (Signed.refused ++ Signed.answer :: Signed.later)).picked =
        some Signed.picked ∧
      (run Signed.paths [Signed.plain]).picked = some Signed.picked := by
  have hrefused : ∀ refused ∈ Signed.refused, ¬ IsValid Signed.paths.length refused := by
    intro refused hmem hvalid
    obtain ⟨picked, hchoose⟩ := isValid_iff.1 hvalid
    rcases List.mem_pair.1 hmem with rfl | rfl <;> nomatch hchoose
  have hanswer : choose Signed.paths Signed.answer = .ok Signed.picked := rfl
  have hplain : choose Signed.paths Signed.plain = .ok Signed.picked := rfl
  have hvalid := isValid_iff.2 ⟨_, hanswer⟩
  have hvalid' := isValid_iff.2 ⟨_, hplain⟩
  have hpaths : Signed.paths ≠ [] := List.cons_ne_nil _ _
  obtain ⟨-, hdecides, hsame⟩ := run_first_valid hpaths
  obtain ⟨-, picked, hrun, halone, -, -⟩ :=
    hdecides Signed.refused Signed.answer Signed.later hrefused hvalid
  have hpicked : some picked = some Signed.picked := halone.symm.trans rfl
  refine ⟨hpaths, hrefused, hvalid, hvalid', Signed.names_answer_iff, hrun.trans hpicked, ?_⟩
  exact (hsame _ _ hvalid hvalid' Signed.names_answer_iff).symm.trans (halone.trans hpicked)

end Selection
end ChangePairs
