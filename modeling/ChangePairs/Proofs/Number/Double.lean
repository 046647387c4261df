import ChangePairs.Number.Binary
import Mathlib.Algebra.Ring.Int.Defs
import Mathlib.Algebra.Ring.Nat

/-!
The integers that have a nearest double.  A double has 53 binary digits, and the largest ones end
below `2 ^ 1024`.  An integer is cut to 53 digits, and rounded to the nearer neighbour; so those
from half a step below `2 ^ 1024` on have none.  That is `nearestDouble?_eq_none_iff`.
-/

namespace ChangePairs
namespace Double

open Float.Model
open Float.Model.UnpackedFloat

/-! ## Cutting digits off -/

theorem mantissa_shiftRight (x : ExtendedMantissa) (k : Nat) :
    (x >>> k).mantissa = x.mantissa / 2 ^ k := by
  induction k with
  | zero => exact (Nat.div_one _).symm
  | succ k ih =>
    show (x >>> k).mantissa / 2 = _
    rw [ih, Nat.div_div_eq_div_mul, Nat.pow_succ]

theorem roundBit_shiftRight (x : ExtendedMantissa) (k : Nat) :
    (x >>> (k + 1)).roundBit = (x.mantissa / 2 ^ k % 2 != 0) := by
  show ((x >>> k).mantissa % 2 != 0) = _
  rw [mantissa_shiftRight]

theorem roundedMantissa_eq (x : ExtendedMantissa) :
    x.roundedMantissa = x.mantissa +
      if x.roundBit && (x.stickyBit || x.mantissa % 2 == 1) then 1 else 0 := by
  obtain ⟨n, round, sticky⟩ := x
  have hmod : n % 2 = 0 ∨ n % 2 = 1 := Nat.mod_two_eq_zero_or_one n
  cases round <;> cases sticky <;> rcases hmod with h | h <;>
    simp [ExtendedMantissa.roundedMantissa, ExtendedMantissa.accuracy,
      Accuracy.roundToNearestEven, h]

/-- The digits of a number that is to be rounded at its last `k` binary digits. -/
def rounded (n k : Nat) : Nat := ((ExtendedMantissa.mk n false false) >>> k).roundedMantissa

theorem rounded_le (n k : Nat) : n / 2 ^ k ≤ rounded n k ∧ rounded n k ≤ n / 2 ^ k + 1 := by
  unfold rounded
  rw [roundedMantissa_eq, mantissa_shiftRight]
  show n / 2 ^ k ≤ n / 2 ^ k + _ ∧ n / 2 ^ k + _ ≤ n / 2 ^ k + 1
  split <;> omega

def excess (n : Nat) (e : Int) : Nat :=
  (Format.binary64.targetExponent (totalExponent n e) - e).toNat

theorem excess_eq (n : Nat) (e : Int) :
    excess n e = (max ((n.log2 : Int) - 52) (-1074 - e)).toNat := by
  unfold excess Format.targetExponent totalExponent Format.mantissaBits Format.minExponent
  show (max ((n.log2 : Int) + 1 + e - 53) (-1074) - e).toNat = _
  omega

theorem div_excess_lt (n : Nat) (e : Int) : n / 2 ^ excess n e < 2 ^ 53 := by
  have hle : n.log2 + 1 ≤ 53 + excess n e := by
    rw [excess_eq]
    omega
  rw [Nat.div_lt_iff_lt_mul (Nat.two_pow_pos _), ← Nat.pow_add]
  exact Nat.lt_of_lt_of_le Nat.lt_log2_self (Nat.pow_le_pow_right (by decide) hle)

theorem excess_of_lt {n : Nat} {e : Int} (hn : n < 2 ^ 53) (he : -1074 ≤ e) : excess n e = 0 := by
  have hlog : n.log2 ≤ 52 := by
    by_cases hzero : n = 0
    · simp [hzero]
    · have hlt := (Nat.log2_lt hzero).2 hn
      omega
  rw [excess_eq]
  omega

theorem excess_two_pow {e : Int} (he : -1074 ≤ e) : excess (2 ^ 53) e = 1 := by
  rw [excess_eq, Nat.log2_two_pow]
  omega

/-- A number is rounded, and what is longer than a double then is cut off. -/
theorem roundWithAccuracy_eq (s : Sign) (n : Nat) (e : Int) {r k : Nat} {e' : Int}
    (hr : rounded n (excess n e) = r) (he' : e + excess n e = e') (hk : excess r e' = k) :
    roundWithAccuracy Format.binary64 s n e .exact =
      if h : r / 2 ^ k = 0 then .zero s
      else .finite s (r / 2 ^ k) (e' + k) (Nat.pos_of_ne_zero h) := by
  subst hr he' hk
  show (if h : ((ExtendedMantissa.mk (rounded n (excess n e)) false false) >>>
      excess (rounded n (excess n e)) (e + excess n e)).mantissa = 0 then UnpackedFloat.zero s
    else .finite s _ _ (Nat.pos_of_ne_zero h)) = _
  rw [mantissa_shiftRight]
  rfl

/-- A number is rounded, and loses one more digit if that made it longer. -/
theorem roundWithAccuracy_cases (s : Sign) (n : Nat) (e : Int) :
    (rounded n (excess n e) = 0 ∧ roundWithAccuracy Format.binary64 s n e .exact = .zero s) ∨
      (rounded n (excess n e) < 2 ^ 53 ∧
        ∃ h, roundWithAccuracy Format.binary64 s n e .exact =
          .finite s (rounded n (excess n e)) (e + excess n e) h) ∨
      (rounded n (excess n e) = 2 ^ 53 ∧
        ∃ h, roundWithAccuracy Format.binary64 s n e .exact =
          .finite s (2 ^ 52) (e + excess n e + 1) h) := by
  have hmin : -1074 ≤ e + excess n e := by
    rw [excess_eq]
    omega
  have hle : rounded n (excess n e) ≤ 2 ^ 53 := by
    have hdiv := div_excess_lt n e
    have hrounded := (rounded_le n (excess n e)).2
    omega
  generalize hr : rounded n (excess n e) = r at hle ⊢
  generalize he' : e + (excess n e : Int) = e' at hmin ⊢
  by_cases hlt : r < 2 ^ 53
  · rw [roundWithAccuracy_eq s n e hr he' (excess_of_lt hlt hmin), Nat.pow_zero, Nat.div_one,
      Int.natCast_zero, Int.add_zero]
    by_cases hzero : r = 0
    · exact .inl ⟨hzero, dif_pos hzero⟩
    · exact .inr (.inl ⟨hlt, Nat.pos_of_ne_zero hzero, dif_neg hzero⟩)
  · obtain rfl : r = 2 ^ 53 := by omega
    rw [roundWithAccuracy_eq s n e hr he' (excess_two_pow hmin)]
    exact .inr (.inr ⟨rfl, Nat.two_pow_pos 52, rfl⟩)

/-! ## Infinity -/

theorem isInf_unpack_iff (b : BitVec Format.binary64.numBits) :
    (UnpackedFloat.unpack Format.binary64 b).isInf = true ↔
      unpackExponent b = -1#_ ∧ unpackMantissa b = 0#_ := by
  unfold UnpackedFloat.unpack
  dsimp only
  by_cases hexponent : unpackExponent b = -1#_
  · rw [if_pos hexponent]
    by_cases hmantissa : unpackMantissa b = 0#_
    · rw [if_pos hmantissa]
      exact iff_of_true rfl ⟨hexponent, hmantissa⟩
    · rw [if_neg hmantissa]
      exact iff_of_false Bool.false_ne_true fun h => hmantissa h.2
  · rw [if_neg hexponent]
    refine iff_of_false ?_ fun h => hexponent h.1
    by_cases hzero : unpackExponent b = 0#_
    · rw [if_pos hzero]
      by_cases hmantissa : unpackMantissa b = 0#_
      · rw [dif_pos hmantissa]
        exact Bool.false_ne_true
      · rw [dif_neg hmantissa]
        exact Bool.false_ne_true
    · rw [if_neg hzero]
      exact Bool.false_ne_true

/-- A number of full length is packed as infinity if its exponent does not fit. -/
theorem le_biased_iff (e : Int) :
    2 ^ Format.binary64.exponentBits ≤ (e + Format.binary64.exponentBias +
      Format.binary64.mantissaBitsWithoutImplicit).toNat + 1 ↔ 972 ≤ e := by
  show 2048 ≤ (e + 1023 + 52).toNat + 1 ↔ _
  omega

theorem isInf_pack_iff {s : Sign} {n : Nat} {e : Int} (h : 0 < n) :
    (Float.Model.pack (.finite s n e h)).isInf = true ↔ 972 ≤ e := by
  show (UnpackedFloat.unpack _ (UnpackedFloat.pack _ (.finite s n e h))).isInf = true ↔ _
  rw [isInf_unpack_iff]
  unfold UnpackedFloat.pack
  dsimp only
  by_cases he : 972 ≤ e
  · rw [if_pos ((le_biased_iff e).2 he)]
    exact iff_of_true ⟨unpackExponent_packComponents, unpackMantissa_packComponents⟩ he
  · rw [if_neg fun h => he ((le_biased_iff e).1 h)]
    refine iff_of_false ?_ he
    split
    · rw [unpackExponent_packComponents]
      intro hinf
      have hnat : (e + 1023 + 52).toNat % 2048 = 2047 := congrArg BitVec.toNat hinf.1
      omega
    · rw [unpackExponent_packComponents]
      intro hinf
      exact absurd hinf.1 (by decide)

theorem isInf_round_iff (s : Sign) (n : Nat) (e : Int) :
    (Float.Model.pack (roundWithAccuracy Format.binary64 s n e .exact)).isInf = true ↔
      0 < rounded n (excess n e) ∧ (972 ≤ e + excess n e ∨
        rounded n (excess n e) = 2 ^ 53 ∧ 971 ≤ e + excess n e) := by
  rcases roundWithAccuracy_cases s n e with ⟨hr, hround⟩ | ⟨hr, h, hround⟩ | ⟨hr, h, hround⟩
  · have hzero : (Float.Model.pack (.zero s)).isInf = false := by cases s <;> decide +kernel
    rw [hround, hr, hzero]
    simp
  · rw [hround, isInf_pack_iff]
    omega
  · rw [hround, isInf_pack_iff]
    omega

/-! ## Short numbers

A number of at most 53 digits is converted as it is, and then multiplied by one. -/

/-- The number is not infinite, and it is a short number of steps of at most `2 ^ limit`. -/
def IsBelow (limit : Int) : UnpackedFloat → Prop
  | .zero _ => True
  | .finite _ n e _ => n < 2 ^ 53 ∧ e ≤ limit
  | _ => False

theorem isBelow_unpack {b : BitVec Format.binary64.numBits} {limit : Int}
    (hexponent : (unpackExponent b).toNat ≤ limit + 1075) (hmin : -1074 ≤ limit)
    (hmax : limit ≤ 971) : IsBelow limit (UnpackedFloat.unpack Format.binary64 b) := by
  have hne : unpackExponent b ≠ -1#_ := by
    intro h
    have hnat : (unpackExponent b).toNat = 2047 := congrArg BitVec.toNat h
    omega
  have hmantissa : (unpackMantissa b).toNat < 2 ^ 52 := (unpackMantissa b).isLt
  unfold UnpackedFloat.unpack
  dsimp only
  rw [if_neg hne]
  by_cases hzero : unpackExponent b = 0#_
  · have hnat : (unpackExponent b).toNat = 0 := congrArg BitVec.toNat hzero
    rw [if_pos hzero]
    by_cases hmantissa0 : unpackMantissa b = 0#_
    · rw [dif_pos hmantissa0]
      exact trivial
    · rw [dif_neg hmantissa0]
      show (unpackMantissa b).toNat < 2 ^ 53 ∧ ((unpackExponent b).toNat : Int) - 1075 + 1 ≤ limit
      omega
  · rw [if_neg hzero]
    have hlt : (1#1 ++ unpackMantissa b).toNat < 2 ^ 53 := (1#1 ++ unpackMantissa b).isLt
    show (1#1 ++ unpackMantissa b).toNat < 2 ^ 53 ∧ ((unpackExponent b).toNat : Int) - 1075 ≤ limit
    omega

theorem isBelow_unpack_pack {s : Sign} {n : Nat} {e limit : Int} (h : 0 < n) (he : e ≤ limit)
    (hmin : -1074 ≤ limit) (hmax : limit ≤ 971) :
    IsBelow limit (Float.Model.pack (.finite s n e h)).unpack := by
  show IsBelow limit (UnpackedFloat.unpack _ (UnpackedFloat.pack _ (.finite s n e h)))
  have hfits : ¬972 ≤ e := by omega
  unfold UnpackedFloat.pack
  dsimp only
  rw [if_neg fun h => hfits ((le_biased_iff e).1 h)]
  split
  · refine isBelow_unpack ?_ hmin hmax
    rw [unpackExponent_packComponents]
    show (((e + 1023 + 52).toNat % 2048 : Nat) : Int) ≤ limit + 1075
    omega
  · refine isBelow_unpack ?_ hmin hmax
    rw [unpackExponent_packComponents]
    show (0 : Int) ≤ limit + 1075
    omega

theorem isBelow_unpack_pack_round {s : Sign} {n : Nat} {e limit : Int}
    (hlimit : e + excess n e + 1 ≤ limit) (hmax : limit ≤ 971) :
    IsBelow limit (Float.Model.pack (roundWithAccuracy Format.binary64 s n e .exact)).unpack := by
  have hmin : -1074 ≤ limit := by
    rw [excess_eq] at hlimit
    omega
  rcases roundWithAccuracy_cases s n e with ⟨-, hround⟩ | ⟨-, h, hround⟩ | ⟨-, h, hround⟩
  · have hzero : (Float.Model.pack (.zero s)).unpack = .zero s := by cases s <;> rfl
    rw [hround, hzero]
    exact trivial
  · rw [hround]
    exact isBelow_unpack_pack h (by omega) hmin hmax
  · rw [hround]
    exact isBelow_unpack_pack h hlimit hmin hmax

theorem shiftLeft_lt {n : Nat} (hlog : n.log2 < 53) : n <<< (52 - n.log2) < 2 ^ 53 := by
  rw [Nat.shiftLeft_eq]
  calc n * 2 ^ (52 - n.log2)
      < 2 ^ (n.log2 + 1) * 2 ^ (52 - n.log2) :=
        Nat.mul_lt_mul_of_pos_right Nat.lt_log2_self (Nat.two_pow_pos _)
    _ = 2 ^ 53 := by
        rw [← Nat.pow_add]
        congr 1
        omega

/-- A short number is made as long as a double before it is rounded. -/
theorem normalize_of_log2_lt {n : Nat} (hpos : 0 < n) (hlog : n.log2 < 53) :
    UnpackedFloat.normalize Format.binary64 (n : Int) 0 .positive =
      roundWithAccuracy Format.binary64 .positive (n <<< (52 - n.log2))
        (0 - ((52 - n.log2 : Nat) : Int)) .exact := by
  have hcompare : compare (n : Int) 0 = .gt := by
    rw [Int.compare_eq_gt]
    omega
  have htarget : Format.binary64.targetExponent (totalExponent n 0) = n.log2 - 52 := by
    show max ((n.log2 : Int) + 1 + 0 - 53) (-1074) = _
    omega
  have hshift : ((0 : Int) - (n.log2 - 52)).toNat = 52 - n.log2 := by omega
  unfold UnpackedFloat.normalize UnpackedFloat.round decreaseExponent
  rw [hcompare]
  dsimp only
  rw [Int.toNat_natCast, htarget, hshift]

theorem isBelow_toFloat {n : Nat} (hn : n < 2 ^ 53) :
    IsBelow 1 n.toUInt64.toFloat.toModel.unpack := by
  have hnat : n.toUInt64.toNat = n := UInt64.toNat_ofNat_of_lt' (by show n < 2 ^ 64; omega)
  show IsBelow 1
    (Float.Model.pack (UnpackedFloat.normalize _ (n.toUInt64.toNat : Int) 0 .positive)).unpack
  rw [hnat]
  by_cases hzero : n = 0
  · subst hzero
    exact trivial
  · have hlog : n.log2 < 53 := (Nat.log2_lt hzero).2 hn
    rw [normalize_of_log2_lt (Nat.pos_of_ne_zero hzero) hlog]
    refine isBelow_unpack_pack_round ?_ (by decide)
    rw [excess_of_lt (shiftLeft_lt hlog) (by omega)]
    omega

theorem isInf_mul_one {x : Float} {limit : Int} (hx : IsBelow limit x.toModel.unpack)
    (hlimit : limit ≤ 970) (one : Float)
    (hone : one.toModel.unpack = .finite .positive (2 ^ 52) (-52) (Nat.two_pow_pos 52)) :
    (x * one).isInf = false := by
  rw [Bool.eq_false_iff]
  show (Float.Model.pack (mul _ x.toModel.unpack one.toModel.unpack)).isInf ≠ true
  rw [hone]
  generalize x.toModel.unpack = u at hx
  cases u with
  | infinity s => exact hx.elim
  | notANumber => exact hx.elim
  | zero s => cases s <;> decide +kernel
  | finite s n e h =>
    show (Float.Model.pack (roundWithAccuracy _ _ (n * 2 ^ 52) (e + -52) .exact)).isInf ≠ true
    rw [ne_eq, isInf_round_iff]
    obtain ⟨hn, he⟩ := hx
    have hlog : (n * 2 ^ 52).log2 < 105 := by
      rw [Nat.log2_lt (by omega)]
      omega
    rw [excess_eq]
    omega

/-! ## Whole numbers -/

/-- The least number that has no nearest double: half a step below the first power of two that
has none. -/
def overflow : Nat := 2 ^ 1024 - 2 ^ 970

theorem log2_mul_two_pow {n : Nat} (hn : n ≠ 0) (k : Nat) : (n * 2 ^ k).log2 = n.log2 + k := by
  have hpow : 0 < 2 ^ k := Nat.two_pow_pos k
  rw [Nat.log2_eq_iff (Nat.mul_ne_zero hn (Nat.ne_of_gt hpow))]
  constructor
  · rw [Nat.pow_add]
    exact Nat.mul_le_mul_right _ (Nat.log2_self_le hn)
  · rw [Nat.add_right_comm, Nat.pow_add]
    exact Nat.mul_lt_mul_of_pos_right Nat.lt_log2_self hpow

theorem overflow_le_two_pow_iff (k : Nat) : overflow ≤ 2 ^ k ↔ 1024 ≤ k := by
  constructor
  · intro h
    have hleast : 2 ^ 1023 < overflow := by decide +kernel
    apply (Nat.pow_lt_pow_iff_right (a := 2) (by decide)).1
    apply Nat.lt_of_lt_of_le hleast h
  · intro hk
    have hgreatest : overflow ≤ 2 ^ 1024 := by decide +kernel
    apply Nat.le_trans hgreatest
    apply (Nat.pow_le_pow_iff_right (a := 2) (by decide)).2
    exact hk

/-- The largest numbers of a length begin with ones only, as many as a double has digits, and the
next digit decides whether they are rounded up to a power of two. -/
theorem rounded_eq_iff {n k : Nat} (hn : n < 2 ^ (k + 54)) :
    rounded (n * 2 ^ 53) (k + 54) = 2 ^ 53 ↔ 2 ^ (k + 54) - 2 ^ k ≤ n := by
  have hcut : ∀ j, n * 2 ^ 53 / 2 ^ (j + 53) = n / 2 ^ j := by
    intro j
    rw [Nat.pow_add, Nat.mul_div_mul_right _ _ (Nat.two_pow_pos 53)]
  have hdigits : n * 2 ^ 53 / 2 ^ (k + 54) = n / 2 ^ k / 2 := by
    rw [Nat.div_div_eq_div_mul, ← Nat.pow_succ]
    exact hcut (k + 1)
  have hpos : 0 < 2 ^ k := Nat.two_pow_pos k
  have hlarge : 2 ^ (k + 54) - 2 ^ k ≤ n ↔ 2 ^ 54 - 1 ≤ n / 2 ^ k := by
    rw [Nat.le_div_iff_mul_le hpos, Nat.pow_add]
    omega
  have hshort : n / 2 ^ k < 2 ^ 54 := by
    rw [Nat.pow_add, Nat.mul_comm] at hn
    rwa [Nat.div_lt_iff_lt_mul hpos]
  rw [hlarge]
  unfold rounded
  rw [roundedMantissa_eq, roundBit_shiftRight _ (k + 53), mantissa_shiftRight]
  dsimp only
  rw [hdigits, hcut]
  generalize n / 2 ^ k = d at hshort ⊢
  constructor
  · intro h
    split at h
    · rename_i hup
      have hodd : d % 2 ≠ 0 := by
        simp only [Bool.and_eq_true, bne_iff_ne] at hup
        exact hup.1
      omega
    · omega
  · intro h
    obtain rfl : d = 2 ^ 54 - 1 := by omega
    exact congrArg ((2 ^ 54 - 1) / 2 + ·) (if_pos (by simp))

theorem ofScientific_eq {n : Nat} (hn : n ≠ 0) :
    Float.Model.ofScientific n 0 = Float.Model.pack
      (roundWithAccuracy Format.binary64 .positive (n * 2 ^ 53) (-53) .exact) := by
  have hbits : Format.binary64.mantissaBits = 53 := rfl
  have hsmall : ¬(0 : Int) < -((2 ^ Format.binary64.exponentBits : Int) + n.log2) := by
    show ¬(0 : Int) < -(2048 + (n.log2 : Int))
    omega
  unfold Float.Model.ofScientific UnpackedFloat.ofScientific
  rw [dif_neg hn, if_neg (by decide), if_neg hsmall, if_pos (Int.le_refl 0)]
  unfold UnpackedFloat.mul
  dsimp only
  rw [Nat.shiftLeft_eq, hbits, Int.toNat_zero, Nat.pow_zero, Nat.mul_one, Int.add_zero]
  rfl

theorem isInf_ofModel_iff {n : Nat} (hn : 2 ^ 53 ≤ n) :
    (Float.Model.ofScientific n 0).isInf = true ↔ overflow ≤ n := by
  have hne : n ≠ 0 := by omega
  have hself := Nat.log2_self_le hne
  have hlong : 53 ≤ n.log2 := (Nat.le_log2 hne).2 hn
  have hexcess : excess (n * 2 ^ 53) (-53) = n.log2 + 1 := by
    rw [excess_eq, log2_mul_two_pow hne]
    omega
  have hpos : 0 < rounded (n * 2 ^ 53) (n.log2 + 1) := by
    refine Nat.lt_of_lt_of_le (Nat.div_pos ?_ (Nat.two_pow_pos _)) (rounded_le _ _).1
    calc 2 ^ (n.log2 + 1) = 2 ^ n.log2 * 2 := Nat.pow_succ _ _
      _ ≤ n * 2 ^ 53 := Nat.mul_le_mul hself (by decide)
  rw [ofScientific_eq hne, isInf_round_iff, hexcess]
  rcases Nat.lt_trichotomy n.log2 1023 with hlog | hlog | hlog
  · have hlt : n < overflow := by
      have hshort : ¬overflow ≤ 2 ^ (n.log2 + 1) := by
        rw [overflow_le_two_pow_iff]
        omega
      exact Nat.lt_trans Nat.lt_log2_self (Nat.lt_of_not_le hshort)
    omega
  · have hlength : n.log2 + 1 = 970 + 54 := by omega
    have hlt : n < 2 ^ (970 + 54) := by
      rw [← hlength]
      exact Nat.lt_log2_self
    have hoverflow : 2 ^ (970 + 54) - 2 ^ 970 = overflow := by decide +kernel
    have hup := rounded_eq_iff hlt
    rw [hoverflow] at hup
    rw [hlength] at hpos ⊢
    omega
  · have hle : overflow ≤ n := Nat.le_trans ((overflow_le_two_pow_iff _).2 hlog) hself
    omega

theorem isInf_ofScientific_iff (n : Nat) :
    (Float.ofScientific n false 0).isInf = true ↔ overflow ≤ n := by
  unfold Float.ofScientific
  by_cases hshort : n < 2 ^ 53
  · have hleast : 2 ^ 53 ≤ overflow := by decide +kernel
    have hone : (Float.ofBits 0x3FF0000000000000).toModel.unpack =
      .finite .positive (2 ^ 52) (-52) (Nat.two_pow_pos 52) := rfl
    rw [dif_pos ⟨hshort, by decide⟩]
    show (n.toUInt64.toFloat * Float.ofBits 0x3FF0000000000000).isInf = true ↔ _
    rw [isInf_mul_one (isBelow_toFloat hshort) (by decide) _ hone]
    exact iff_of_false Bool.false_ne_true
      (Nat.not_le_of_lt (Nat.lt_of_lt_of_le hshort hleast))
  · rw [dif_neg fun h => hshort h.1]
    exact isInf_ofModel_iff (Nat.le_of_not_lt hshort)

end Double

/-- An integer has a nearest double exactly if it is smaller than `2 ^ 1024` by more than half a
step of the largest doubles. -/
theorem nearestDouble?_eq_none_iff (n : Int) :
    nearestDouble? n = none ↔ Double.overflow ≤ n.natAbs := by
  rw [← Double.isInf_ofScientific_iff]
  unfold nearestDouble?
  dsimp only
  cases (Float.ofScientific n.natAbs false 0).isInf with
  | true => exact iff_of_true rfl rfl
  | false => exact iff_of_false nofun Bool.false_ne_true

end ChangePairs
