import ChangePairs.Proofs.Diff.Header
import ChangePairs.Proofs.Diff.Section
import ChangePairs.Proofs.Number.Integer
import ChangePairs.Proofs.Pairing

/-!
Numbers that are too long to be read.  A header is read word by word, and the first word that is
no number rejects it, so a word with too many digits counts only if all words before it are
numbers.  `fails_read_iff` says that a header then has no reading at all, rejected or not, and
`fails_parse_iff` that one such header leaves the whole diff unread.
-/

namespace ChangePairs
namespace Header

def rangeWords (range : Text) : List Text :=
  (splitRange range).1 :: (splitRange range).2.toList

def numberWords (header : Text) : List Text :=
  match words? header with
  | none => []
  | some (old, new) => rangeWords old ++ rangeWords new

theorem rangeWords_of_isNumber {w : Text} (h : IsNumber w) : rangeWords w = [w] := by
  rw [rangeWords, splitRange_of_not_mem h.comma_not_mem, Option.toList_none]

/-- Some word has too many digits, and it and all words before it are numbers. -/
def TooLong : List Text → Prop
  | [] => False
  | w :: rest => IsNumber w ∧ (digitLimit < w.length ∨ TooLong rest)

theorem tooLong_append {a b : List Text} :
    TooLong (a ++ b) ↔ TooLong a ∨ (∀ w ∈ a, IsNumber w) ∧ TooLong b := by
  induction a with
  | nil => simp [TooLong]
  | cons w a ih =>
    simp only [List.cons_append, TooLong, ih, List.mem_cons, forall_eq_or_imp]
    grind

/-! ## One number -/

theorem isNumber_iff {w : Text} : IsNumber w ↔ (w.isEmpty || !w.all Char.isDigit) = false := by
  rw [Bool.or_eq_false_iff, Bool.not_eq_false', List.all_eq_true, List.isEmpty_eq_false_iff]
  exact ⟨fun h => ⟨h.nonempty, h.ascii⟩, fun h => ⟨h.1, h.2⟩⟩

theorem run_readNumber_of_not {w : Text} (h : ¬ IsNumber w) :
    (readNumber w).run = .ok (.error (.nonNumeric w)) := by
  rw [isNumber_iff, Bool.not_eq_false] at h
  unfold readNumber
  rw [if_pos h]
  rfl

theorem run_readNumber_of_lt {w : Text} (h : IsNumber w) (hlong : digitLimit < w.length) :
    (readNumber w).run = .error (.reading w.length) := by
  rw [isNumber_iff] at h
  unfold readNumber
  rw [h, if_neg Bool.false_ne_true, if_pos hlong]
  rfl

theorem fails_readNumber_iff {w : Text} :
    Fails (readNumber w).run ↔ IsNumber w ∧ digitLimit < w.length := by
  by_cases hw : IsNumber w
  · by_cases hlong : digitLimit < w.length
    · rw [run_readNumber_of_lt hw hlong]
      exact iff_of_true (fails_error _) ⟨hw, hlong⟩
    · rw [readNumber_of_isNumber hw (by omega)]
      exact iff_of_false (not_fails_ok _) fun h => hlong h.2
  · rw [run_readNumber_of_not hw]
    exact iff_of_false (not_fails_ok _) fun h => hw h.1

theorem exists_readNumber_iff {w : Text} :
    (∃ n, (readNumber w).run = .ok (.ok n)) ↔ IsNumber w ∧ w.length ≤ digitLimit := by
  by_cases hw : IsNumber w
  · by_cases hlong : digitLimit < w.length
    · rw [run_readNumber_of_lt hw hlong]
      refine iff_of_false ?_ fun h => by omega
      rintro ⟨n, h⟩
      nomatch h
    · rw [readNumber_of_isNumber hw (by omega)]
      exact iff_of_true ⟨_, rfl⟩ ⟨hw, by omega⟩
  · rw [run_readNumber_of_not hw]
    refine iff_of_false ?_ fun h => hw h.1
    rintro ⟨n, h⟩
    nomatch h

/-! ## One header -/

theorem fails_readRange_iff {range : Text} :
    Fails (readRange range).run ↔ TooLong (rangeWords range) := by
  unfold readRange rangeWords
  obtain ⟨start, count?⟩ := splitRange range
  dsimp only
  rw [fails_run_bind_iff, fails_readNumber_iff]
  cases count? with
  | none =>
    simp only [Option.toList_none, TooLong, or_false]
    rw [or_iff_left]
    rintro ⟨a, -, h⟩
    exact not_fails_ok _ h
  | some count =>
    have hrest : ∀ a : Nat, Fails (readNumber count >>= fun c =>
        pure (⟨a, c⟩ : LineRange) : Reading LineRange).run ↔
          IsNumber count ∧ digitLimit < count.length := by
      intro a
      rw [fails_run_bind_iff, fails_readNumber_iff, or_iff_left]
      rintro ⟨c, -, h⟩
      exact not_fails_ok _ h
    simp only [hrest, exists_and_right, exists_readNumber_iff, Option.toList_some, TooLong,
      or_false]
    have hlength := Nat.lt_or_ge digitLimit start.length
    grind

theorem exists_readRange_iff {range : Text} :
    (∃ r, (readRange range).run = .ok (.ok r)) ↔
      ∀ w ∈ rangeWords range, IsNumber w ∧ w.length ≤ digitLimit := by
  unfold readRange rangeWords
  obtain ⟨start, count?⟩ := splitRange range
  dsimp only
  simp only [run_bind_eq_ok_iff, List.forall_mem_cons, ← exists_readNumber_iff]
  cases count? with
  | none =>
    constructor
    · rintro ⟨r, a, ha, -⟩
      exact ⟨⟨a, ha⟩, by simp⟩
    · rintro ⟨⟨a, ha⟩, -⟩
      exact ⟨_, a, ha, rfl⟩
  | some count =>
    constructor
    · rintro ⟨r, a, ha, hr⟩
      obtain ⟨c, hc, -⟩ := run_bind_eq_ok_iff.1 hr
      refine ⟨⟨a, ha⟩, fun w hw => ?_⟩
      rw [Option.toList_some, List.mem_singleton] at hw
      exact ⟨c, hw ▸ hc⟩
    · rintro ⟨⟨a, ha⟩, hcount⟩
      obtain ⟨c, hc⟩ := hcount count (by simp)
      exact ⟨⟨a, c⟩, a, ha, run_bind_eq_ok_iff.2 ⟨c, hc, rfl⟩⟩

theorem length_le_of_not_tooLong {ws : List Text} (h : ¬ TooLong ws)
    (hws : ∀ w ∈ ws, IsNumber w) : ∀ w ∈ ws, w.length ≤ digitLimit := by
  induction ws with
  | nil => nofun
  | cons w ws ih =>
    have hw := hws w List.mem_cons_self
    intro x hx
    rcases List.mem_cons.1 hx with rfl | hx
    · exact Nat.le_of_not_lt fun hlong => h ⟨hw, .inl hlong⟩
    · exact ih (fun hrest => h ⟨hw, .inr hrest⟩)
        (fun y hy => hws y (List.mem_cons_of_mem w hy)) x hx

theorem not_fails_checkStart (side : Side) (r : LineRange) : ¬ Fails (checkStart side r).run := by
  unfold checkStart
  split
  · exact not_fails_ok _
  · exact not_fails_ok _

/-- A header has no reading if and only if it comes to a number with too many digits. -/
theorem fails_read_iff {header : Text} :
    Fails (read header).run ↔ TooLong (numberWords header) := by
  unfold read numberWords
  cases words? header with
  | none => exact iff_of_false (not_fails_ok _) not_false
  | some ranges =>
    obtain ⟨old, new⟩ := ranges
    dsimp only
    have hchecks : ∀ a b : LineRange, ¬ Fails (checkStart .before a >>= fun _ =>
        checkStart .after b >>= fun _ => pure (a, b) : Reading (LineRange × LineRange)).run := by
      intro a b h
      rcases fails_run_bind_iff.1 h with h | ⟨-, -, h⟩
      · exact not_fails_checkStart _ _ h
      · rcases fails_run_bind_iff.1 h with h | ⟨-, -, h⟩
        · exact not_fails_checkStart _ _ h
        · exact not_fails_ok _ h
    rw [fails_run_bind_iff, fails_readRange_iff, tooLong_append]
    simp only [fails_run_bind_iff (x := readRange new), hchecks, fails_readRange_iff, and_false,
      exists_false, or_false, exists_and_right, exists_readRange_iff]
    -- The new range is looked at only if the old one was read, and a word of the old one that is
    -- too long has stopped the header before that.
    constructor
    · rintro (hold | ⟨hold, hnew⟩)
      · exact .inl hold
      · exact .inr ⟨fun w hw => (hold w hw).1, hnew⟩
    · rintro (hold | ⟨hold, hnew⟩)
      · exact .inl hold
      · by_cases hlong : TooLong (rangeWords old)
        · exact .inl hlong
        · exact .inr ⟨fun w hw => ⟨hold w hw, length_le_of_not_tooLong hlong hold w hw⟩, hnew⟩

/-! ## Ranges that were read -/

structure IsStated (r : LineRange) : Prop where
  start_nonneg : 0 ≤ r.start
  start_lt : r.start < tooLarge
  count_nonneg : 0 ≤ r.count
  start_pos : 0 < r.count → 1 ≤ r.start

theorem lt_of_readNumber {w : Text} {n : Nat} (h : (readNumber w).run = .ok (.ok n)) :
    n < tooLarge := by
  obtain ⟨hw, hshort⟩ := exists_readNumber_iff.1 ⟨n, h⟩
  rw [readNumber_of_isNumber hw hshort] at h
  have hn := Except.ok.inj (Except.ok.inj h)
  rw [← hn]
  refine numberOfDigits_lt (fun d hd => ?_) (by rwa [List.length_map])
  obtain ⟨c, hc, rfl⟩ := List.mem_map.1 hd
  have hdigit := hw.ascii c hc
  simp only [Char.isDigit, Bool.and_eq_true, decide_eq_true_eq, UInt32.le_iff_toNat_le] at hdigit
  have hlast : c.toNat ≤ 57 := hdigit.2
  have hzero : '0'.toNat = 48 := rfl
  omega

theorem start_lt_of_readRange {range : Text} {r : LineRange}
    (h : (readRange range).run = .ok (.ok r)) :
    0 ≤ r.start ∧ r.start < tooLarge ∧ 0 ≤ r.count := by
  unfold readRange at h
  generalize splitRange range = ranges at h
  obtain ⟨start, count?⟩ := ranges
  obtain ⟨a, ha, h⟩ := run_bind_eq_ok_iff.1 h
  have hlt := lt_of_readNumber ha
  cases count? with
  | none =>
    obtain rfl := Except.ok.inj (Except.ok.inj h)
    dsimp only
    omega
  | some count =>
    obtain ⟨c, -, h⟩ := run_bind_eq_ok_iff.1 h
    obtain rfl := Except.ok.inj (Except.ok.inj h)
    dsimp only
    omega

theorem start_of_checkStart {side : Side} {r : LineRange}
    (h : (checkStart side r).run = .ok (.ok ())) : 0 < r.count → 1 ≤ r.start := by
  intro hcount
  unfold checkStart at h
  split at h
  · nomatch h
  · omega

theorem isStated_of_read {header : Text} {old new : LineRange}
    (h : (read header).run = .ok (.ok (old, new))) : IsStated old ∧ IsStated new := by
  unfold read at h
  split at h
  · nomatch h
  · obtain ⟨a, ha, h⟩ := run_bind_eq_ok_iff.1 h
    obtain ⟨b, hb, h⟩ := run_bind_eq_ok_iff.1 h
    obtain ⟨⟨⟩, hcheck, h⟩ := run_bind_eq_ok_iff.1 h
    obtain ⟨⟨⟩, hcheck', h⟩ := run_bind_eq_ok_iff.1 h
    obtain ⟨rfl, rfl⟩ := Prod.mk.inj (Except.ok.inj (Except.ok.inj h))
    obtain ⟨h₁, h₂, h₃⟩ := start_lt_of_readRange ha
    obtain ⟨h₁', h₂', h₃'⟩ := start_lt_of_readRange hb
    exact ⟨⟨h₁, h₂, h₃, start_of_checkStart hcheck⟩, ⟨h₁', h₂', h₃', start_of_checkStart hcheck'⟩⟩

end Header

/-! ## One diff -/

namespace Diff

/-- The diff has a header with a number that is too long to be read. -/
def IsUnreadable (diff : Text) : Prop :=
  ∃ l ∈ Text.lines diff, Header.opens l = true ∧
    Header.TooLong (Header.numberWords (Header.ofLine l))

theorem fails_readSections_iff {ss : List Section} :
    Fails (readSections ss) ↔ ∃ s ∈ ss, Fails s.read := by
  induction ss with
  | nil => exact iff_of_false (not_fails_ok _) (by simp)
  | cons s ss ih =>
    rw [readSections, fails_bind_bind_iff, ih]
    · simp only [List.mem_cons, exists_eq_or_imp]
    · exact fun _ _ => not_fails_ok _

theorem fails_read_section_iff {s : Section} :
    Fails s.read ↔ Header.TooLong (Header.numberWords (Header.ofLine s.first)) := by
  rw [Section.read_eq, fails_map_iff, Header.fails_read_iff]

/-- One number with too many digits leaves the whole diff unread. -/
theorem fails_parse_iff {diff : Text} : Fails (parse diff) ↔ IsUnreadable diff := by
  have hfirst : ∀ l, l ∈ (sections (Text.lines diff)).2.map Section.first ↔
      l ∈ Text.lines diff ∧ Header.opens l = true := by
    intro l
    rw [sections_map_first, List.mem_filter]
  unfold parse IsUnreadable
  rw [fails_readSections_iff]
  simp only [fails_read_section_iff, ← and_assoc, ← hfirst, List.mem_map]
  grind

theorem IsUnreadable.not_allBlank {diff : Text} (h : IsUnreadable diff) :
    ¬ Text.allBlank diff = true := by
  obtain ⟨l, hl, hopens, -⟩ := h
  intro hblank
  have hat : '@' ∈ l := by
    unfold Header.opens at hopens
    split at hopens
    · exact List.mem_cons_self
    · nomatch hopens
  rw [Text.allBlank, ← Text.flatten_lines diff] at hblank
  exact absurd (List.all_eq_true.1 hblank '@' (List.mem_flatten_of_mem hl hat)) (by decide)

theorem isStated_of_mem_hunks {diff : Text} {parsed : Parsed} {h : Hunk}
    (hparse : parse diff = .ok parsed) (hmem : h ∈ parsed.hunks) :
    Header.IsStated h.old ∧ Header.IsStated h.new := by
  obtain ⟨results, hresults, rfl⟩ := readSections_eq_ok_iff.1 hparse
  obtain ⟨r, hr, hhunk⟩ := List.mem_filterMap.1 hmem
  obtain ⟨s, -, hs⟩ := exists_of_forall₂ hresults.flip hr
  obtain ⟨x, hx, hresult⟩ := Section.read_eq_ok_iff.1 hs
  have hhunk := (congrArg Except.toOption hresult).trans hhunk
  cases x with
  | ok ranges =>
    cases hhunk
    exact Header.isStated_of_read hx
  | error fault => nomatch hhunk

end Diff
end ChangePairs
