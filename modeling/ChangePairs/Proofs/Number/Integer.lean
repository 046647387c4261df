import ChangePairs.Number.Integer
import ChangePairs.Proofs.Failure

/-!
How large the integers are that may be read and written.  A number that was read can be written
(`numberOfDigits_lt`), but not every sum of such numbers (`fails_writeInteger_iff`).
-/

namespace ChangePairs

def tooLarge : Nat := Nat.pow 10 digitLimit

theorem one_lt_tooLarge : 1 < tooLarge := by
  have hpow : ∀ k : Nat, k ≠ 0 → 1 < Nat.pow 10 k := fun k hk => Nat.one_lt_pow hk (by decide)
  unfold tooLarge
  exact hpow digitLimit (by decide)

theorem foldl_digits_lt {digits : List Nat} (h : ∀ d ∈ digits, d < 10) (n : Nat) :
    digits.foldl (fun n d => 10 * n + d) n < (n + 1) * Nat.pow 10 digits.length := by
  induction digits generalizing n with
  | nil => simp
  | cons d digits ih =>
    have hd := h d List.mem_cons_self
    have ih := ih (fun x hx => h x (List.mem_cons_of_mem d hx)) (10 * n + d)
    have hstep : 10 * n + d + 1 ≤ (n + 1) * 10 := by omega
    calc List.foldl (fun n d => 10 * n + d) (10 * n + d) digits
        < (10 * n + d + 1) * Nat.pow 10 digits.length := ih
      _ ≤ (n + 1) * 10 * Nat.pow 10 digits.length := Nat.mul_le_mul_right _ hstep
      _ = (n + 1) * (Nat.pow 10 digits.length * 10) := by
        rw [Nat.mul_assoc, Nat.mul_comm 10]

theorem numberOfDigits_lt_pow {digits : List Nat} {k : Nat} (h : ∀ d ∈ digits, d < 10)
    (hshort : digits.length ≤ k) : numberOfDigits digits < Nat.pow 10 k := by
  have hlt := foldl_digits_lt h 0
  rw [Nat.zero_add, Nat.one_mul] at hlt
  exact Nat.lt_of_lt_of_le hlt (Nat.pow_le_pow_right (by decide) hshort)

theorem length_ofNat_le_iff {n k : Nat} (hk : 0 < k) :
    (Text.ofNat n).length ≤ k ↔ n < Nat.pow 10 k :=
  Nat.length_toDigits_le_iff (by decide) hk

theorem numberOfDigits_lt {digits : List Nat} (h : ∀ d ∈ digits, d < 10)
    (hshort : digits.length ≤ digitLimit) : numberOfDigits digits < tooLarge := by
  unfold tooLarge
  exact numberOfDigits_lt_pow h hshort

theorem foldl_nines (k n : Nat) :
    (List.replicate k 9).foldl (fun n d => 10 * n + d) n + 1 = (n + 1) * Nat.pow 10 k := by
  induction k generalizing n with
  | zero => simp
  | succ k ih =>
    have hstep : 10 * n + 9 + 1 = (n + 1) * 10 := by omega
    calc List.foldl (fun n d => 10 * n + d) n (List.replicate (k + 1) 9) + 1
        = (10 * n + 9 + 1) * Nat.pow 10 k := ih (10 * n + 9)
      _ = (n + 1) * (10 * Nat.pow 10 k) := by rw [hstep, Nat.mul_assoc]
      _ = (n + 1) * Nat.pow 10 (k + 1) := by rw [Nat.mul_comm 10]; rfl

/-- The largest number of `k` digits. -/
theorem numberOfDigits_nines (k : Nat) :
    numberOfDigits (List.replicate k 9) + 1 = Nat.pow 10 k := by
  have h := foldl_nines k 0
  rwa [Nat.zero_add, Nat.one_mul] at h

/-- The sign of an integer does not count. -/
theorem fails_writeInteger_iff {n : Int} : Fails (writeInteger n) ↔ tooLarge ≤ n.natAbs := by
  have hlength : (Text.ofNat n.natAbs).length ≤ digitLimit ↔ n.natAbs < Nat.pow 10 digitLimit :=
    length_ofNat_le_iff (by decide)
  unfold writeInteger tooLarge
  split
  · next h => exact iff_of_false (not_fails_ok _) (Nat.not_le_of_lt (hlength.1 h))
  · next h => exact iff_of_true (fails_error _) (Nat.le_of_not_lt (mt hlength.2 h))

end ChangePairs
