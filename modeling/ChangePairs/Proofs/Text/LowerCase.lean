import Mathlib
import ChangePairs.Text.LowerCase

/-!
Lower case and the letters of ASCII.  Capital and small letters of ASCII are alike in all that the
lower case of a text depends on: being cased, not being ignored, and their own lower case.  So texts
that differ in the case of such letters only have the same lower case (`lower_congr`), other scripts
and final sigmas included, and a text in ASCII has that of its letters (`lower_of_ascii`).

Facts about the characters of ASCII are checked one by one and brought to all characters by
`toLower_congr`.
-/

namespace ChangePairs
namespace Text

/-- The text with its ASCII letters in lower case and every other character as it is. -/
def lowerAscii (t : Text) : Text := t.map Char.toLower

/-- Texts that differ at most in the case of ASCII letters. -/
def SameButCase (s t : Text) : Prop := lowerAscii s = lowerAscii t

instance (s t : Text) : Decidable (SameButCase s t) :=
  inferInstanceAs (Decidable (lowerAscii s = lowerAscii t))

/-! ## Characters -/

theorem forall_ascii {p : Char → Prop} (h : ∀ n < 0x80, p (Char.ofNat n)) {c : Char}
    (hc : c.toNat < 0x80) : p c := by
  rw [← Char.ofNat_toNat c]
  exact h c.toNat hc

theorem lt_of_isUpper {c : Char} (hc : c.isUpper = true) : c.toNat < 0x80 := by
  have hle : c.val ≤ 'Z'.val := (of_decide_eq_true hc).2
  exact Nat.lt_of_le_of_lt (UInt32.le_iff_toNat_le.1 hle) (by decide)

/-- What is the same for capital and small letters of ASCII does not depend on case. -/
theorem toLower_congr {α : Type} {f : Char → α}
    (h : ∀ n < 0x80, f (Char.ofNat n).toLower = f (Char.ofNat n)) (c : Char) :
    f c.toLower = f c := by
  by_cases hc : c.isUpper = true
  · exact forall_ascii (p := fun c => f c.toLower = f c) h (lt_of_isUpper hc)
  · rw [Char.toLower_eq_of_not_isUpper hc]

theorem lt_toLower_iff (c : Char) : c.toLower.toNat < 0x80 ↔ c.toNat < 0x80 :=
  decide_eq_decide.1 (toLower_congr (f := fun c => decide (c.toNat < 0x80)) (by decide +kernel) c)

theorem isCaseIgnorable_toLower (c : Char) : isCaseIgnorable c.toLower = isCaseIgnorable c :=
  toLower_congr (by decide +kernel) c

theorem isCased_toLower (c : Char) : isCased c.toLower = isCased c :=
  toLower_congr (by decide +kernel) c

theorem lowerChar_toLower (c : Char) : lowerChar c.toLower = lowerChar c :=
  toLower_congr (by decide +kernel) c

theorem lowerChar_of_ascii {c : Char} (hc : c.toNat < 0x80) : lowerChar c = [c.toLower] :=
  forall_ascii (p := fun c => lowerChar c = [c.toLower]) (by decide +kernel) hc

/-- A character that is no ASCII letter is not the lower case of one. -/
theorem toLower_eq_iff {a c : Char} (ha : a.isAlpha = false) : c.toLower = a ↔ c = a := by
  have hself : ∀ c : Char, c.isAlpha = false → c.toLower = c := by
    intro c hc
    apply Char.toLower_eq_of_not_isUpper
    simp [(Bool.or_eq_false_iff.1 hc).1]
  constructor
  · intro h
    rw [← h, Char.isAlpha_toLower_eq_isAlpha] at ha
    rw [← h, hself c ha]
  · rintro rfl
    exact hself c ha

/-! ## Texts -/

theorem lowerAscii_lowerAscii (t : Text) : lowerAscii (lowerAscii t) = lowerAscii t := by
  simp [lowerAscii]

theorem takeWhile_lowerAscii {p : Char → Bool} (hp : ∀ c : Char, p c.toLower = p c) (t : Text) :
    (lowerAscii t).takeWhile p = lowerAscii (t.takeWhile p) := by
  unfold lowerAscii
  rw [List.takeWhile_map, funext (f := p ∘ Char.toLower) hp]

theorem dropWhile_lowerAscii {p : Char → Bool} (hp : ∀ c : Char, p c.toLower = p c) (t : Text) :
    (lowerAscii t).dropWhile p = lowerAscii (t.dropWhile p) := by
  unfold lowerAscii
  rw [List.dropWhile_map, funext (f := p ∘ Char.toLower) hp]

theorem all_lowerAscii {p : Char → Bool} (hp : ∀ c : Char, p c.toLower = p c) (t : Text) :
    (lowerAscii t).all p = t.all p := by
  unfold lowerAscii
  rw [List.all_map, funext (f := p ∘ Char.toLower) hp]

theorem casedAhead_lowerAscii (t : Text) : casedAhead (lowerAscii t) = casedAhead t := by
  induction t with
  | nil => rfl
  | cons c t ih =>
    show casedAhead (c.toLower :: lowerAscii t) = _
    rw [casedAhead, casedAhead, ih, isCaseIgnorable_toLower, isCased_toLower]

theorem lowerFrom_lowerAscii (casedBehind : Bool) (t : Text) :
    lowerFrom casedBehind (lowerAscii t) = lowerFrom casedBehind t := by
  induction t generalizing casedBehind with
  | nil => rfl
  | cons c t ih =>
    have hsigma : c.toLower = 'Σ' ↔ c = 'Σ' := toLower_eq_iff rfl
    show lowerFrom casedBehind (c.toLower :: lowerAscii t) = _
    simp only [lowerFrom, hsigma, ih, casedAhead_lowerAscii, isCaseIgnorable_toLower,
      isCased_toLower, lowerChar_toLower]

/-- The case of ASCII letters has no influence on the lower case of a text, not even on that of
other letters. -/
theorem lower_congr {s t : Text} (h : SameButCase s t) : lower s = lower t := by
  have hlower : ∀ t, lower (lowerAscii t) = lower t := lowerFrom_lowerAscii false
  rw [← hlower s, h, hlower]

theorem lower_of_ascii {t : Text} (h : ∀ c ∈ t, c.toNat < 0x80) : lower t = lowerAscii t := by
  suffices hfrom : ∀ casedBehind, lowerFrom casedBehind t = lowerAscii t from hfrom false
  induction t with
  | nil => exact fun _ => rfl
  | cons c t ih =>
    rw [List.forall_mem_cons] at h
    intro casedBehind
    have hsigma : c ≠ 'Σ' := by
      rintro rfl
      exact absurd h.1 (by decide)
    simp [lowerFrom, lowerAscii, hsigma, lowerChar_of_ascii h.1, ih h.2]

end Text
end ChangePairs
