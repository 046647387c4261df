import ChangePairs.Diff.Header
import ChangePairs.Proofs.Text.Line
import ChangePairs.Proofs.Text.Part

/-!
Reading hunk headers.  A header whose ranges are written with numerals is read as it stands,
whatever text follows its closing marks.  The main statement is `read_written`, and
`ofLine_written` brings the line of a header into that form.
-/

namespace ChangePairs
namespace Header

/-- A number word: ASCII digits, at least one. -/
structure IsNumber (word : Text) : Prop where
  nonempty : word ≠ []
  ascii : ∀ c ∈ word, c.isDigit = true

structure Numeral where
  digits : Text
  isNumber : IsNumber digits
  short : digits.length ≤ digitLimit

def Numeral.value (n : Numeral) : Nat :=
  numberOfDigits (n.digits.map fun c => c.toNat - '0'.toNat)

def Numeral.single (c : Char) (h : c.isDigit = true) : Numeral :=
  ⟨[c], ⟨by simp, by simpa using h⟩, by simp [digitLimit]⟩

theorem isDigit_digitChar {d : Nat} (h : d < 10) : d.digitChar.isDigit = true := by
  revert d
  decide

def Numeral.lastDigit (n : Nat) : Numeral :=
  .single (n % 10).digitChar (isDigit_digitChar (Nat.mod_lt n (by decide)))

/-- A range as it is written: a start and, unless it is one line, a count. -/
structure WrittenRange where
  start : Numeral
  count? : Option Numeral

namespace WrittenRange

def text (r : WrittenRange) : Text :=
  match r.count? with
  | none => r.start.digits
  | some count => r.start.digits ++ ',' :: count.digits

def range (r : WrittenRange) : LineRange :=
  ⟨r.start.value, match r.count? with
    | none => 1
    | some count => count.value⟩

end WrittenRange

def written (old new : WrittenRange) (tail : Text) : Text :=
  ['@', '@', ' ', '-'] ++ old.text ++ [' ', '+'] ++ new.text ++ [' ', '@', '@'] ++ tail

/-! ## Words -/

theorem word_append {w rest : Text} (hw : ∀ c ∈ w, Text.isBlank c = false)
    (hrest : rest.head? = some ' ') : word (w ++ rest) = (w, rest) := by
  obtain ⟨more, rfl⟩ := List.head?_eq_some_iff.1 hrest
  have hblank : Text.isBlank ' ' = true := rfl
  unfold word
  induction w with
  | nil => simp [hblank]
  | cons c w ih =>
    have hc := hw c List.mem_cons_self
    have ih := ih fun d hd => hw d (List.mem_cons_of_mem c hd)
    rw [Prod.mk.injEq] at ih
    simp [hc, ih.1, ih.2]

theorem isBlank_of_isDigit {c : Char} (h : c.isDigit = true) : Text.isBlank c = false := by
  have hc : 48 ≤ c.toNat ∧ c.toNat ≤ 57 := by
    simp only [Char.isDigit, Bool.and_eq_true, decide_eq_true_eq, UInt32.le_iff_toNat_le] at h
    exact h
  simp only [Text.isBlank, Text.blankTable, Text.RangeTable.covers]
  rw [if_neg (by omega), if_neg (by omega), if_pos (by omega)]
  simp only [Bool.or_false, Bool.or_eq_false_iff, decide_eq_false_iff_not]
  omega

theorem IsNumber.not_blank {w : Text} (h : IsNumber w) : ∀ c ∈ w, Text.isBlank c = false :=
  fun c hc => isBlank_of_isDigit (h.ascii c hc)

theorem words?_append {old new tail : Text} (hold : ∀ c ∈ old, Text.isBlank c = false)
    (hnew : ∀ c ∈ new, Text.isBlank c = false) (hold' : old ≠ []) (hnew' : new ≠ []) :
    words? (['@', '@', ' ', '-'] ++ old ++ [' ', '+'] ++ new ++ [' ', '@', '@'] ++ tail) =
      some (old, new) := by
  have hopen : "@@ -".toList = ['@', '@', ' ', '-'] := rfl
  have hplus : " +".toList = [' ', '+'] := rfl
  have hclose : " @@".toList = [' ', '@', '@'] := rfl
  simp only [List.append_assoc]
  unfold words?
  rw [hopen, Text.after?_append, Option.bind_eq_bind, Option.bind_some, word_append hold rfl]
  dsimp only
  rw [hplus, Text.after?_append, Option.bind_some, word_append hnew rfl]
  dsimp only
  rw [hclose, Text.after?_append, Option.bind_some]
  simp [hold', hnew']

/-! ## Ranges -/

theorem ne_comma_of_not_mem {c : Char} {rest : Text} (h : ',' ∉ c :: rest) :
    ∀ d ∈ rest, decide (d ≠ ',') = true := by
  intro d hd
  rw [decide_eq_true_iff]
  rintro rfl
  exact h (List.mem_cons_of_mem c hd)

theorem splitRange_of_not_mem {w : Text} (hw : ',' ∉ w) : splitRange w = (w, none) := by
  cases w with
  | nil => rfl
  | cons c rest =>
    have hrest := @List.dropWhile_append_of_pos _ _ rest [] (ne_comma_of_not_mem hw)
    rw [List.append_nil, List.dropWhile_nil] at hrest
    simp only [splitRange, hrest]

theorem splitRange_append {a b : Text} (ha : a ≠ []) (hcomma : ',' ∉ a) (hb : b ≠ []) :
    splitRange (a ++ ',' :: b) = (a, some b) := by
  cases a with
  | nil => exact absurd rfl ha
  | cons c rest =>
    have hrest := ne_comma_of_not_mem hcomma
    obtain ⟨d, count, rfl⟩ := List.exists_cons_of_ne_nil hb
    simp only [List.cons_append, splitRange, List.dropWhile_append_of_pos hrest,
      List.takeWhile_append_of_pos hrest]
    simp

theorem IsNumber.comma_not_mem {w : Text} (h : IsNumber w) : ',' ∉ w := by
  intro hw
  have := h.ascii ',' hw
  simp at this

/-- Number words hold no comma, so a written range comes apart where it was put together. -/
theorem splitRange_text (r : WrittenRange) :
    splitRange r.text = (r.start.digits, r.count?.map Numeral.digits) := by
  have hstart := r.start.isNumber
  unfold WrittenRange.text
  cases r.count? with
  | none => rw [splitRange_of_not_mem hstart.comma_not_mem, Option.map_none]
  | some count =>
    rw [splitRange_append hstart.nonempty hstart.comma_not_mem count.isNumber.nonempty,
      Option.map_some]

theorem WrittenRange.text_ne_nil (r : WrittenRange) : r.text ≠ [] := by
  have hstart := r.start.isNumber.nonempty
  unfold WrittenRange.text
  cases r.count? with
  | none => exact hstart
  | some count => simp

theorem WrittenRange.not_blank (r : WrittenRange) : ∀ c ∈ r.text, Text.isBlank c = false := by
  have hdigit : ∀ n : Numeral, ∀ c ∈ n.digits, Text.isBlank c = false :=
    fun n => n.isNumber.not_blank
  unfold WrittenRange.text
  cases r.count? with
  | none => exact hdigit r.start
  | some count =>
    intro c hc
    rcases List.mem_append.1 hc with hc | hc
    · exact hdigit r.start c hc
    · rcases List.mem_cons.1 hc with rfl | hc
      · rfl
      · exact hdigit count c hc

/-! ## Reading what is written -/

theorem readNumber_of_isNumber {w : Text} (h : IsNumber w) (hshort : w.length ≤ digitLimit) :
    readNumber w = pure (numberOfDigits (w.map fun c => c.toNat - '0'.toNat)) := by
  have hall : w.all Char.isDigit = true := List.all_eq_true.2 h.ascii
  have hne : w.isEmpty = false := by simpa using h.nonempty
  unfold readNumber
  rw [hall, hne, if_neg (by simp), if_neg (by omega)]

theorem readRange_text (r : WrittenRange) : readRange r.text = pure r.range := by
  unfold readRange
  rw [splitRange_text]
  dsimp only
  rw [readNumber_of_isNumber r.start.isNumber r.start.short, pure_bind]
  unfold WrittenRange.range
  cases r.count? with
  | none => rfl
  | some count =>
    rw [Option.map_some]
    dsimp only
    rw [readNumber_of_isNumber count.isNumber count.short]
    rfl

theorem checkStart_of_le {side : Side} {r : LineRange} (h : 0 < r.count → 1 ≤ r.start) :
    checkStart side r = pure () := by
  unfold checkStart
  rw [if_neg]
  omega

/-- A header whose ranges are written with numerals is read as it stands, whatever follows. -/
theorem read_written {old new : WrittenRange} (hold : 0 < old.range.count → 1 ≤ old.range.start)
    (hnew : 0 < new.range.count → 1 ≤ new.range.start) (tail : Text) :
    read (written old new tail) = pure (old.range, new.range) := by
  unfold read written
  rw [words?_append old.not_blank new.not_blank old.text_ne_nil new.text_ne_nil]
  dsimp only
  rw [readRange_text, readRange_text, pure_bind, pure_bind, checkStart_of_le hold,
    checkStart_of_le hnew]
  rfl

/-! ## The line of a header -/

/-- Only what stands behind the closing marks loses its end. -/
theorem ofLine_written (old new : WrittenRange) (tail : Text) :
    ofLine (written old new tail) = written old new (ofLine tail) := by
  have hclose : [' ', '@', '@'] = [' ', '@'] ++ ['@'] := rfl
  unfold written
  rw [hclose, ← List.append_assoc]
  exact Text.dropEnd_append (by decide) _ tail

theorem ofLine_chompLine (line : Text) : ofLine (Text.chompLine line) = ofLine line := by
  rcases Text.eq_chompLine_or line with h | h
  · rw [← h]
  · conv => rhs; rw [h]
    simp [ofLine, Text.dropEnd]

theorem written_append (old new : WrittenRange) (tail rest : Text) :
    written old new tail ++ rest = written old new (tail ++ rest) := by
  unfold written
  rw [List.append_assoc]

theorem not_mem_written {c : Char} (hblank : Text.isBlank c = true) (hc : c ≠ ' ')
    {old new : WrittenRange} {tail : Text} (h : c ∉ tail) : c ∉ written old new tail := by
  have hrange : ∀ r : WrittenRange, c ∉ r.text := by
    intro r hmem
    rw [r.not_blank c hmem] at hblank
    nomatch hblank
  have hold := hrange old
  have hnew := hrange new
  have hsigns : c ≠ '@' ∧ c ≠ '-' ∧ c ≠ '+' := by
    refine ⟨?_, ?_, ?_⟩ <;>
    · rintro rfl
      nomatch hblank
  simp [written, hold, hnew, h, hc, hsigns]

theorem opens_written (old new : WrittenRange) (tail : Text) :
    opens (written old new tail) = true := by
  rfl

end Header
end ChangePairs
