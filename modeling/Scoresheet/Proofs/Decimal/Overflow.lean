import Scoresheet.Proofs.Decimal.Differences

/-!
# Differences past the greatest floats

A result that is past the greatest float may still be rounded to it. Half a step on, where the next
float would be as near if there were one, rounding to even goes up, and from there on results are
infinite.

* `WithinRange` — a number that is rounded to a finite float.
* `exists_roundWithAccuracy_past` — all others get an exponent that no float has.
* `isFinite_normalize_iff` — an integral mantissa with a sign of its own is rounded to a finite
  float exactly if what it stands for is within the range.
* `isFinite_sub_iff` — so is a difference of two finite floats.
-/

namespace Scoresheet.Decimal

open Float.Model
open Float.Model.UnpackedFloat

/-- **A number within the range of floats:** less than half a step past the greatest of them. -/
def WithinRange (v : ℚ) : Prop :=
  |v| < greatest + greatestStep / 2

/-- Where the range ends, in units of the last place of the greatest floats. -/
theorem greatest_add_half : greatest + greatestStep / 2 = (2 ^ 53 - 1 / 2) * greatestStep := by
  unfold greatest
  ring

theorem withinRange_value (x : Float) : WithinRange (value x) :=
  (abs_value_le x).trans_lt (lt_add_of_pos_right _ (half_pos greatestStep_pos))

/-- From the middle between an odd number and the next one on, rounding goes up. -/
theorem Represents.roundedMantissa_of_half_le {em : ExtendedMantissa} {u : ℚ}
    (h : Represents em u) {n : ℕ} (hodd : n % 2 = 1) (hlow : n + 1 / 2 ≤ u) (hhigh : u < n + 1) :
    em.roundedMantissa = n + 1 := by
  obtain ⟨hle, hlt⟩ := h.bounds
  obtain ⟨m, roundBit, stickyBit⟩ := em
  -- The mantissa is the odd number itself, so that the residual bits decide.
  obtain rfl : m = n := by
    have hmn : (m : ℚ) < n + 1 := hle.trans_lt hhigh
    have hnm : (n : ℚ) < m + 1 := by linarith
    norm_cast at hmn hnm
    omega
  cases roundBit with
  | false =>
    cases stickyBit <;> simp only [Represents] at h <;> linarith
  | true =>
    simp only [ExtendedMantissa.roundedMantissa, ExtendedMantissa.accuracy,
      Accuracy.roundToNearestEven]
    cases stickyBit
    · rw [hodd]
    · rfl

/-- A rounded mantissa that is past the range is brought to an exponent that no float has. -/
theorem exists_shiftToTargetExponent_past {r : ℕ} {target : ℤ} (hlow : 2 ^ 52 ≤ r)
    (hr : r ≤ 2 ^ 53) (hpast : 971 < target ∨ target = 971 ∧ r = 2 ^ 53) :
    ∃ m e, shiftToTargetExponent Format.binary64 r target .exact = (⟨m, false, false⟩, e) ∧
      0 < m ∧ 971 < e := by
  obtain hlt | rfl := hr.lt_or_eq
  · have hpast : 971 < target := hpast.resolve_right fun h => hlt.ne h.2
    exact ⟨r, target, shiftToTargetExponent_self (by omega) hlt (by omega) (.inl hlow), by omega,
      hpast⟩
  -- The mantissa of 54 bits is halved, and the last place moves up by one.
  · have hshift := shiftToTargetExponent_carry (by omega : -1074 < target + 1)
    rw [add_sub_cancel_right] at hshift
    exact ⟨2 ^ 52, target + 1, hshift, by norm_num, by omega⟩

/-- A number that is past the range, in units of the place that rounding keeps: that is the last
place of the greatest floats, and the number is in the last half of a unit, or it is further up. -/
theorem past_of_le {u : ℚ} {target : ℤ} (hhigh : u < 2 ^ 53)
    (hv : greatest + greatestStep / 2 ≤ u * 2 ^ target) :
    971 < target ∨ target = 971 ∧ 2 ^ 53 - 1 / 2 ≤ u := by
  rw [greatest_add_half] at hv
  obtain hlt | rfl | hpast := lt_trichotomy target 971
  · -- With a lesser last place, 53 bits do not reach the end of the range.
    exfalso
    have hunit : (2 : ℚ) ^ target * 2 ≤ greatestStep := by
      rw [← zpow_add_one₀ two_ne_zero]
      exact zpow_le_zpow_right₀ one_le_two (by omega)
    have hpos : (0 : ℚ) < 2 ^ target := by positivity
    nlinarith
  · exact .inr ⟨rfl, le_of_mul_le_mul_right hv greatestStep_pos⟩
  · exact .inl hpast

/-- **What is not within the range** gets an exponent that no float has. -/
theorem exists_roundWithAccuracy_past {n : ℕ} {i : ℤ} (hbits : 2 ^ 52 ≤ n ∨ i ≤ -1074)
    (hv : greatest + greatestStep / 2 ≤ n * 2 ^ i) (sign : Sign) :
    ∃ m e h, roundWithAccuracy Format.binary64 sign n i .exact = .finite sign m e h ∧ 971 < e := by
  obtain ⟨em, hshift, hem⟩ := shiftToTargetExponent_eq (represents_exact n) hbits
  have hself : (n : ℚ) ≤ n ∧ (n : ℚ) < n + 1 := ⟨le_rfl, lt_add_one _⟩
  -- The place that is kept, and the number in units of it.
  set target : ℤ := max ((n.log2 : ℤ) + i - 52) (-1074) with htarget
  obtain ⟨hhigh, hlow⟩ := target_bounds hself hbits htarget
  set u : ℚ := n * 2 ^ i / 2 ^ target with hu
  have hexact : n * 2 ^ i = u * 2 ^ target := (div_mul_cancel₀ _ (by positivity)).symm
  rw [hexact] at hv
  have hpast := past_of_le hhigh hv
  -- The least exponent would leave the number far inside the range.
  have hlow' : 2 ^ 52 ≤ u := hlow.resolve_right (by omega)
  have hodd : (2 ^ 53 - 1) % 2 = 1 := by norm_num
  -- Past the range the rounded mantissa is carried, or has an exponent too great already.
  have hcarry : 971 < target ∨ target = 971 ∧ em.roundedMantissa = 2 ^ 53 :=
    hpast.imp_right fun ⟨heq, hhalf⟩ =>
      ⟨heq, hem.roundedMantissa_of_half_le hodd (by push_cast; linarith) (by push_cast; linarith)⟩
  obtain ⟨m, e, hfinal, hm, he⟩ := exists_shiftToTargetExponent_past
    (hem.le_roundedMantissa (by exact_mod_cast hlow'))
    (hem.roundedMantissa_le (by exact_mod_cast hhigh.le)) hcarry
  refine ⟨m, e, hm, ?_, he⟩
  unfold roundWithAccuracy
  simp only [hshift, hfinal]
  exact dif_neg hm.ne'

/-- The same of a mantissa that may be short of bits: what is packed then is not finite. -/
theorem not_isFinite_round {m : ℕ} {e : ℤ} (hpos : 0 < m)
    (hv : greatest + greatestStep / 2 ≤ m * 2 ^ e) (sign : Sign) :
    (Float.ofModel (.pack (UnpackedFloat.round Format.binary64 sign m e))).isFinite = false := by
  -- The mantissa is first brought to the exponent of the last place, with the same value.
  obtain ⟨k, hdecrease, hbits, -⟩ := exists_decreaseExponent hpos e
  rw [← shiftLeft_mul_zpow m k e] at hv
  obtain ⟨m', e', h, hround, hpast⟩ := exists_roundWithAccuracy_past hbits hv sign
  have hround' : UnpackedFloat.round Format.binary64 sign m e = .finite sign m' e' h := by
    unfold UnpackedFloat.round
    simp only [hdecrease, hround]
  show (Float.Model.pack (UnpackedFloat.round Format.binary64 sign m e)).unpack.isFinite = false
  rw [hround', unpack_pack_past h hpast]
  rfl

/-- **An integral mantissa** with a sign of its own is rounded to a finite float exactly if what it
stands for is within the range. -/
theorem isFinite_normalize_iff {k e : ℤ} :
    (Float.ofModel (.pack (UnpackedFloat.normalize Format.binary64 k e .positive))).isFinite = true
      ↔ WithinRange (k * 2 ^ e) := by
  refine ⟨fun h => ?_, fun h => (near_normalize h).finite⟩
  -- Past the range the mantissa is not zero, and whatever its sign is it is rounded too far up.
  by_contra hpast
  have hunit : (0 : ℚ) < 2 ^ e := by positivity
  rw [WithinRange, not_lt, abs_mul, abs_of_pos hunit] at hpast
  rw [← Bool.not_eq_false] at h
  refine h ?_
  unfold UnpackedFloat.normalize
  obtain hneg | rfl | hpos := lt_trichotomy k 0
  · obtain ⟨m, hm⟩ := Int.eq_ofNat_of_zero_le (by omega : 0 ≤ -k)
    obtain rfl : k = -m := by omega
    rw [Int.compare_eq_lt.2 hneg]
    exact not_isFinite_round (by omega) (by simpa using hpast) .negative
  · have hend : 0 < greatest + greatestStep / 2 :=
      add_pos greatest_pos (half_pos greatestStep_pos)
    rw [Int.cast_zero, abs_zero, zero_mul] at hpast
    exact absurd hpast hend.not_ge
  · obtain ⟨m, rfl⟩ := Int.eq_ofNat_of_zero_le hpos.le
    rw [Int.compare_eq_gt.2 hpos]
    exact not_isFinite_round (by omega) (by simpa using hpast) .positive

/-- **A difference of two finite floats** is finite exactly if what they differ by is within the
range. -/
theorem isFinite_sub_iff {x y : Float} (hx : x.isFinite = true) (hy : y.isFinite = true) :
    (x - y).isFinite = true ↔ WithinRange (value x - value y) := by
  rw [sub_eq_pack]
  -- By whether either side is a zero; with one the difference is the other side, which is in range.
  obtain ⟨sx, hx'⟩ | ⟨sx, mx, ex, hmx, hx'⟩ := unpack_of_isFinite hx
  · have hwithin : WithinRange (value x - value y) := by
      rw [value_of_zero hx', WithinRange, abs_sub_comm, sub_zero]
      exact withinRange_value y
    refine iff_of_true ?_ hwithin
    obtain ⟨sy, hy'⟩ | ⟨sy, my, ey, hmy, hy'⟩ := unpack_of_isFinite hy
    · rw [hx', hy']
      cases sx <;> cases sy <;> rfl
    · rw [hx', hy']
      exact isFinite_ofModel_pack (Magnitude.ofFloat_of_finite hy').1 (-sy)
  · obtain ⟨sy, hy'⟩ | ⟨sy, my, ey, hmy, hy'⟩ := unpack_of_isFinite hy
    · have hwithin : WithinRange (value x - value y) := by
        rw [value_of_zero hy', sub_zero]
        exact withinRange_value x
      refine iff_of_true ?_ hwithin
      rw [hx', hy']
      exact isFinite_ofModel_pack (Magnitude.ofFloat_of_finite hx').1 sx
    · -- Both are brought to the lesser exponent, where the difference of the mantissas is exact.
      rw [value_of_finite hx', value_of_finite hy',
        ← apply_decreaseExponent sx mx (min_le_left ex ey),
        ← apply_decreaseExponent sy my (min_le_right ex ey), ← sub_mul, ← Int.cast_sub, hx', hy']
      exact isFinite_normalize_iff

end Scoresheet.Decimal
