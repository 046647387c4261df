import ChangePairs.Proofs.Diff.DigitLimit
import Mathlib.Data.Nat.Digits.Defs

/-!
The grammar of hunk headers.  `Header.read` takes a header apart word by word.  Here is what it
accepts, said without reading: a header *states* two ranges if it is written with numerals, in
decimal, and neither range has lines but no first line.

The main statement is `read_section`.  A section becomes a hunk exactly if its header states two
ranges, and these are the ranges of the hunk; any other header is rejected, unless a number that is
too long to be read comes before the first word that is no number.
-/

namespace ChangePairs
namespace Header

/-- The number that is written with the digits: the last one counts ones, the one before it tens,
and so on. -/
def decimal (digits : Text) : Nat :=
  Nat.ofDigits 10 (digits.reverse.map fun c => c.toNat - '0'.toNat)

def WrittenRange.stated (r : WrittenRange) : LineRange where
  start := decimal r.start.digits
  count := match r.count? with
    | none => 1
    | some count => decimal count.digits

/-- The range is empty, or it starts at the first line or later. -/
def IsProperRange (r : LineRange) : Prop := r.count = 0 ∨ 1 ≤ r.start

/-- The header is written with numerals, whatever text follows its closing marks, and the ranges
are those that are written. -/
def States (header : Text) (old new : LineRange) : Prop :=
  ∃ (a b : WrittenRange) (tail : Text), header = written a b tail ∧
    old = a.stated ∧ new = b.stated ∧ IsProperRange old ∧ IsProperRange new

/-! ## Numbers -/

theorem numberOfDigits_eq_ofDigits (ds : List Nat) :
    numberOfDigits ds = Nat.ofDigits 10 ds.reverse := by
  have hstep : (fun n d : Nat => 10 * n + d) = fun n d => d + 10 * n := by
    funext n d
    omega
  unfold numberOfDigits
  rw [Nat.ofDigits_eq_foldr, List.foldr_reverse, hstep]
  rfl

theorem Numeral.value_eq_decimal (n : Numeral) : n.value = decimal n.digits := by
  unfold value decimal
  rw [numberOfDigits_eq_ofDigits, List.map_reverse]

theorem WrittenRange.range_eq_stated (r : WrittenRange) : r.range = r.stated := by
  unfold range stated
  rw [r.start.value_eq_decimal]
  cases r.count? with
  | none => rfl
  | some count => dsimp only; rw [count.value_eq_decimal]

/-! ## Words -/

theorem eq_word_append {t rest : Text} (h : (word t).2 = rest) : t = (word t).1 ++ rest := by
  rw [← h]
  exact List.takeWhile_append_dropWhile.symm

/-- Only what has the marks of a header is taken apart into two range words. -/
theorem eq_of_words? {header old new : Text} (h : words? header = some (old, new)) :
    ∃ tail, header =
      ['@', '@', ' ', '-'] ++ old ++ [' ', '+'] ++ new ++ [' ', '@', '@'] ++ tail := by
  unfold words? at h
  obtain ⟨rest, hopen, h⟩ := Option.bind_eq_some_iff.1 h
  obtain ⟨rest', hplus, h⟩ := Option.bind_eq_some_iff.1 h
  obtain ⟨tail, hclose, h⟩ := Option.bind_eq_some_iff.1 h
  split at h
  · nomatch h
  · obtain ⟨hold, hnew⟩ := Prod.mk.inj (Option.some.inj h)
    have hold : (word rest).1 = old := hold
    have hnew : (word rest').1 = new := hnew
    have hrest := eq_word_append (Text.eq_append_of_after? hplus)
    have hrest' := eq_word_append (Text.eq_append_of_after? hclose)
    refine ⟨tail, ?_⟩
    rw [Text.eq_append_of_after? hopen, hrest, hold, hrest', hnew]
    simp only [List.append_assoc]
    rfl

theorem splitRange_spec (range : Text) :
    range = (splitRange range).1 ++
      match (splitRange range).2 with
      | none => []
      | some count => ',' :: count := by
  unfold splitRange
  cases range with
  | nil => rfl
  | cons c rest =>
    dsimp only
    split
    · next d count hrest =>
      dsimp only
      rw [List.cons_append, ← hrest, List.takeWhile_append_dropWhile]
    · exact (List.append_nil _).symm

/-! ## What is read is written -/

theorem exists_numeral_of_readNumber {w : Text} {n : Nat}
    (h : (readNumber w).run = .ok (.ok n)) : ∃ numeral : Numeral, numeral.digits = w := by
  obtain ⟨hnumber, hshort⟩ := exists_readNumber_iff.1 ⟨n, h⟩
  exact ⟨⟨w, hnumber, hshort⟩, rfl⟩

theorem exists_written_of_readRange {range : Text} {r : LineRange}
    (h : (readRange range).run = .ok (.ok r)) :
    ∃ w : WrittenRange, w.text = range ∧ w.range = r := by
  have hsplit := splitRange_spec range
  have hwritten : ∃ w : WrittenRange, w.text = range := by
    unfold readRange at h
    generalize splitRange range = parts at h hsplit
    obtain ⟨start, count?⟩ := parts
    dsimp only at hsplit
    obtain ⟨a, ha, hrest⟩ := run_bind_eq_ok_iff.1 h
    obtain ⟨s, hs⟩ := exists_numeral_of_readNumber ha
    cases count? with
    | none =>
      refine ⟨⟨s, none⟩, ?_⟩
      rw [hsplit, List.append_nil]
      exact hs
    | some count =>
      obtain ⟨b, hb, -⟩ := run_bind_eq_ok_iff.1 hrest
      obtain ⟨c, hc⟩ := exists_numeral_of_readNumber hb
      refine ⟨⟨s, some c⟩, ?_⟩
      rw [hsplit, ← hs, ← hc]
      rfl
  obtain ⟨w, rfl⟩ := hwritten
  rw [readRange_text] at h
  exact ⟨w, rfl, Except.ok.inj (Except.ok.inj h)⟩

theorem isProperRange_iff {r : LineRange} (h : 0 ≤ r.count) :
    IsProperRange r ↔ (0 < r.count → 1 ≤ r.start) := by
  unfold IsProperRange
  omega

theorem WrittenRange.count_nonneg (r : WrittenRange) : 0 ≤ r.stated.count := by
  unfold stated
  cases r.count? with
  | none => exact Int.one_nonneg
  | some count => exact Int.natCast_nonneg _

theorem states_of_read {header : Text} {old new : LineRange}
    (h : (read header).run = .ok (.ok (old, new))) : States header old new := by
  have hstated := isStated_of_read h
  unfold read at h
  split at h
  · nomatch h
  · next oldWord newWord hwords =>
    obtain ⟨tail, hheader⟩ := eq_of_words? hwords
    obtain ⟨a, ha, h⟩ := run_bind_eq_ok_iff.1 h
    obtain ⟨b, hb, h⟩ := run_bind_eq_ok_iff.1 h
    obtain ⟨⟨⟩, -, h⟩ := run_bind_eq_ok_iff.1 h
    obtain ⟨⟨⟩, -, h⟩ := run_bind_eq_ok_iff.1 h
    obtain ⟨rfl, rfl⟩ := Prod.mk.inj (Except.ok.inj (Except.ok.inj h))
    obtain ⟨x, rfl, rfl⟩ := exists_written_of_readRange ha
    obtain ⟨y, rfl, rfl⟩ := exists_written_of_readRange hb
    have hold := (isProperRange_iff hstated.1.count_nonneg).2 hstated.1.start_pos
    have hnew := (isProperRange_iff hstated.2.count_nonneg).2 hstated.2.start_pos
    exact ⟨x, y, tail, hheader, x.range_eq_stated, y.range_eq_stated, hold, hnew⟩

theorem read_of_states {header : Text} {old new : LineRange} (h : States header old new) :
    (read header).run = .ok (.ok (old, new)) := by
  obtain ⟨a, b, tail, rfl, rfl, rfl, hold, hnew⟩ := h
  rw [isProperRange_iff a.count_nonneg, ← a.range_eq_stated] at hold
  rw [isProperRange_iff b.count_nonneg, ← b.range_eq_stated] at hnew
  rw [read_written hold hnew, a.range_eq_stated, b.range_eq_stated]
  rfl

theorem read_eq_ok_iff {header : Text} {old new : LineRange} :
    (read header).run = .ok (.ok (old, new)) ↔ States header old new :=
  ⟨states_of_read, read_of_states⟩

/-- Of the three ways in which reading can end, the first two leave the third. -/
theorem exists_fault_iff {header : Text} :
    (∃ fault, (read header).run = .ok (.error fault)) ↔
      (¬ ∃ old new, States header old new) ∧ ¬ TooLong (numberWords header) := by
  rw [← fails_read_iff]
  simp only [← read_eq_ok_iff]
  cases (read header).run with
  | error limit =>
    refine iff_of_false ?_ fun h => h.2 (fails_error limit)
    rintro ⟨fault, h⟩
    nomatch h
  | ok result =>
    cases result with
    | error fault =>
      refine iff_of_true ⟨fault, rfl⟩ ⟨?_, not_fails_ok _⟩
      rintro ⟨old, new, h⟩
      nomatch h
    | ok ranges =>
      refine iff_of_false ?_ fun h => h.1 ⟨ranges.1, ranges.2, rfl⟩
      rintro ⟨fault, h⟩
      nomatch h

/-! ## Numbers that are too long -/

theorem infix_of_mem_rangeWords {range w : Text} (h : w ∈ rangeWords range) : w <:+: range := by
  have hsplit := splitRange_spec range
  unfold rangeWords at h
  generalize splitRange range = parts at h hsplit
  obtain ⟨start, count?⟩ := parts
  rw [hsplit]
  rcases List.mem_cons.1 h with rfl | h
  · exact (List.prefix_append _ _).isInfix
  · rw [Option.mem_toList] at h
    obtain rfl := Option.mem_def.1 h
    exact ((List.suffix_cons _ _).trans (List.suffix_append _ _)).isInfix

theorem infix_of_mem_numberWords {header w : Text} (h : w ∈ numberWords header) :
    w <:+: header := by
  unfold numberWords at h
  cases hwords : words? header with
  | none =>
    rw [hwords] at h
    nomatch h
  | some ranges =>
    obtain ⟨old, new⟩ := ranges
    rw [hwords] at h
    obtain ⟨tail, rfl⟩ := eq_of_words? hwords
    rcases List.mem_append.1 h with h | h
    · refine (infix_of_mem_rangeWords h).trans ⟨['@', '@', ' ', '-'], [' ', '+'] ++ new ++
        [' ', '@', '@'] ++ tail, ?_⟩
      simp only [List.append_assoc]
    · refine (infix_of_mem_rangeWords h).trans ⟨['@', '@', ' ', '-'] ++ old ++ [' ', '+'],
        [' ', '@', '@'] ++ tail, ?_⟩
      simp only [List.append_assoc]

theorem exists_of_tooLong {ws : List Text} (h : TooLong ws) :
    ∃ w ∈ ws, IsNumber w ∧ digitLimit < w.length := by
  induction ws with
  | nil => exact h.elim
  | cons w ws ih =>
    obtain ⟨hnumber, hlong | hrest⟩ := h
    · exact ⟨w, List.mem_cons_self, hnumber, hlong⟩
    · obtain ⟨x, hx, hlong⟩ := ih hrest
      exact ⟨x, List.mem_cons_of_mem w hx, hlong⟩

theorem not_tooLong_numberWords {header : Text}
    (h : ∀ w, w <:+: header → IsNumber w → w.length ≤ digitLimit) :
    ¬ TooLong (numberWords header) := by
  intro hlong
  obtain ⟨w, hw, hnumber, hlt⟩ := exists_of_tooLong hlong
  have hle := h w (infix_of_mem_numberWords hw) hnumber
  omega

end Header

namespace Diff

open Header

/-- A section becomes a hunk exactly if its header states two ranges, and they are the hunk's.
Every other header is rejected, unless it comes to a number that is too long to be read, and for
that some run of digits in it has to be too long. -/
theorem read_section (s : Section) :
    (∀ hunk, s.read = .ok (.ok hunk) ↔
      States (ofLine s.first) hunk.old hunk.new ∧
        hunk.header = ofLine s.first ∧ hunk.text = s.text) ∧
    ((∃ fault, s.read = .ok (.error ⟨ofLine s.first, fault⟩)) ↔
      (¬ ∃ old new, States (ofLine s.first) old new) ∧
        ¬ TooLong (numberWords (ofLine s.first))) ∧
    ((∀ w, w <:+: ofLine s.first → IsNumber w → w.length ≤ digitLimit) →
      ¬ TooLong (numberWords (ofLine s.first))) := by
  refine ⟨fun hunk => ?_, ?_, not_tooLong_numberWords⟩
  · rw [Section.read_eq_ok_iff, ← read_eq_ok_iff]
    constructor
    · rintro ⟨x, hx, hresult⟩
      cases x with
      | error fault => nomatch hresult
      | ok ranges =>
        obtain rfl := Except.ok.inj hresult
        exact ⟨hx, rfl, rfl⟩
    · rintro ⟨hread, hheader, htext⟩
      refine ⟨_, hread, ?_⟩
      obtain ⟨header, old, new, text⟩ := hunk
      subst hheader htext
      rfl
  · rw [← exists_fault_iff]
    refine exists_congr fun fault => ?_
    rw [Section.read_eq_ok_iff]
    constructor
    · rintro ⟨x, hx, hresult⟩
      cases x with
      | error fault' =>
        obtain rfl := (Rejection.mk.inj (Except.error.inj hresult)).2
        exact hx
      | ok ranges => nomatch hresult
    · intro hread
      exact ⟨_, hread, rfl⟩

/-! ## Two headers

Zeros in front of a number and text that looks like a header behind the closing marks do no harm;
a second comma in a range does. -/

namespace Padded

def longTail : Section := ⟨"@@ -007,0 +01 @@ @@ -x +9 @@\r\n".toList, ["+a\n".toList]⟩

def hunk : Hunk where
  header := "@@ -007,0 +01 @@ @@ -x +9 @@".toList
  old := ⟨7, 0⟩
  new := ⟨1, 1⟩
  text := "@@ -007,0 +01 @@ @@ -x +9 @@\r\n+a\n".toList

def twoCommas : Section := ⟨"@@ -1,2,3 +1 @@\n".toList, []⟩

theorem states : States (ofLine longTail.first) hunk.old hunk.new := by
  refine ⟨⟨⟨"007".toList, ⟨by decide, by simp⟩, by decide⟩, some (.single '0' rfl)⟩,
    ⟨⟨"01".toList, ⟨by decide, by simp⟩, by decide⟩, none⟩, " @@ -x +9 @@".toList, ?_⟩
  exact ⟨rfl, rfl, rfl, .inl rfl, .inr (by decide)⟩

end Padded

theorem read_section_padded :
    Padded.longTail.read = .ok (.ok Padded.hunk) ∧
      ¬ ∃ old new, States (ofLine Padded.twoCommas.first) old new := by
  constructor
  · exact ((read_section Padded.longTail).1 Padded.hunk).2 ⟨Padded.states, rfl, rfl⟩
  · exact ((read_section Padded.twoCommas).2.1.1 ⟨.nonNumeric "2,3".toList, rfl⟩).1

end Diff
end ChangePairs
