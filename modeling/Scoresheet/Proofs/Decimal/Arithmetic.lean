import Scoresheet.Proofs.Decimal.Scientific

/-!
# How far floats are from exact results

An operation on floats rounds its exact result once. As long as that result is not past the greatest
floats, what comes out is finite, and it is off by half a step of the greatest floats at most. For
small results this says little, but it is what decides whether a long sum leaves the range.

* `value` — the number that a float stands for.
* `greatest`, `greatestStep` — the greatest float, and its distance from the one before it.
* `Near` — a float is finite and no more than half a step off a number.
* `Represents.exists_shiftToTargetExponent` — how far a rounded mantissa is off.
* `near_roundWithAccuracy` — rounding comes near the exact result.
* `near_add`, `near_div_ofNat` — so do sums, and quotients by a count.
-/

namespace Scoresheet.Decimal

open Float.Model
open Float.Model.UnpackedFloat

/-! ### The numbers that floats stand for -/

/-- A sign as a factor. -/
def signFactor : Sign → ℚ
  | .negative => -1
  | .positive => 1

/-- The number that an unpacked float stands for. What is not finite stands for none; zero is put in
its place. -/
def unpackedValue : UnpackedFloat → ℚ
  | .finite sign m e _ => signFactor sign * (m * 2 ^ e)
  | _ => 0

/-- **The number that a float stands for,** if it is finite. -/
def value (x : Float) : ℚ :=
  unpackedValue x.toModel.unpack

/-- The distance between the greatest floats. No two neighbours are further from each other. -/
def greatestStep : ℚ := 2 ^ (971 : ℤ)

/-- The greatest float. -/
def greatest : ℚ := (2 ^ 53 - 1) * greatestStep

/-- **A float is near a number** if it is finite and half a step off at most. -/
structure Near (x : Float) (v : ℚ) : Prop where
  finite : x.isFinite = true
  error : |value x - v| ≤ greatestStep / 2

theorem greatestStep_pos : 0 < greatestStep := zpow_pos two_pos _

theorem greatest_pos : 0 < greatest := mul_pos (by norm_num) greatestStep_pos

/-- One step past the greatest float there is a power of two. -/
theorem greatest_add_greatestStep : greatest + greatestStep = 2 ^ 53 * greatestStep := by
  unfold greatest
  ring

theorem abs_signFactor_mul (sign : Sign) (v : ℚ) : |signFactor sign * v| = |v| := by
  cases sign <;> simp [signFactor]

/-- What a float near a number is at most. -/
theorem Near.abs_le {x : Float} {v : ℚ} (h : Near x v) : |value x| ≤ |v| + greatestStep / 2 := by
  have herror := h.error
  have htriangle := abs_sub_abs_le_abs_sub (value x) v
  linarith

theorem near_self {x : Float} (h : x.isFinite = true) : Near x (value x) :=
  ⟨h, by rw [sub_self, abs_zero]; exact (half_pos greatestStep_pos).le⟩

/-- No float is past the greatest one. -/
theorem abs_value_le (x : Float) : |value x| ≤ greatest := by
  unfold value
  -- Only a finite float other than zero is to be looked at: its mantissa has 53 bits, and its last
  -- place is not above the greatest.
  cases hx : x.toModel.unpack with
  | finite sign m e hm =>
    have hcanonical := (Magnitude.ofFloat_of_finite hx).1
    have hmantissa : (m : ℚ) ≤ 2 ^ 53 - 1 := by
      have hlt : (m : ℚ) + 1 ≤ 2 ^ 53 := by exact_mod_cast hcanonical.lt
      linarith
    have hunit : (2 : ℚ) ^ e ≤ greatestStep :=
      zpow_le_zpow_right₀ one_le_two hcanonical.le_greatest
    rw [unpackedValue, abs_signFactor_mul, abs_of_nonneg (by positivity), greatest]
    exact mul_le_mul hmantissa hunit (by positivity) (by norm_num)
  | notANumber | infinity | zero =>
    show |(0 : ℚ)| ≤ greatest
    rw [abs_zero]
    exact greatest_pos.le

/-! ### Rounding -/

/-- A mantissa is rounded by half a unit at most. -/
theorem Represents.abs_roundedMantissa_sub_le {em : ExtendedMantissa} {t : ℚ}
    (h : Represents em t) : |(em.roundedMantissa : ℚ) - t| ≤ 1 / 2 := by
  obtain ⟨n, roundBit, stickyBit⟩ := em
  have hparity : n % 2 = 0 ∨ n % 2 = 1 := by omega
  cases roundBit <;> cases stickyBit <;> simp only [Represents] at h <;>
    simp only [ExtendedMantissa.roundedMantissa, ExtendedMantissa.accuracy,
      Accuracy.roundToNearestEven] <;>
    rw [abs_le]
  case true.false =>
    -- The number is a midpoint, and both of its neighbours are half a unit off.
    obtain heven | hodd := hparity
    · rw [heven, h, add_zero]
      constructor <;> linarith
    · rw [hodd, h, Nat.cast_add_one]
      constructor <;> linarith
  case true.true =>
    rw [Nat.cast_add_one]
    constructor <;> linarith
  all_goals constructor <;> linarith

/-- A bound on a number is one on its rounded mantissa too, if it is an integer. -/
theorem Represents.roundedMantissa_le {em : ExtendedMantissa} {t : ℚ} (h : Represents em t)
    {k : ℕ} (hk : t ≤ k) : em.roundedMantissa ≤ k := by
  have habove := (abs_le.1 h.abs_roundedMantissa_sub_le).2
  have hlt : (em.roundedMantissa : ℚ) < k + 1 := by linarith
  exact Nat.lt_add_one_iff.1 (by exact_mod_cast hlt)

theorem Represents.le_roundedMantissa {em : ExtendedMantissa} {t : ℚ} (h : Represents em t)
    {k : ℕ} (hk : k ≤ t) : k ≤ em.roundedMantissa := by
  have hbelow := (abs_le.1 h.abs_roundedMantissa_sub_le).1
  have hlt : (k : ℚ) < em.roundedMantissa + 1 := by linarith
  exact Nat.lt_add_one_iff.1 (by exact_mod_cast hlt)

section Rounding

variable {n : ℕ} {i : ℤ} {accuracy : Accuracy} {t : ℚ}

/-- The number that rounding starts from, in units of the last place that rounding keeps. -/
theorem target_bounds (ht : (n : ℚ) ≤ t ∧ t < n + 1) (hbits : 2 ^ 52 ≤ n ∨ i ≤ -1074)
    {target : ℤ} (htarget : target = max ((n.log2 : ℤ) + i - 52) (-1074)) :
    t * 2 ^ i / 2 ^ target < 2 ^ 53 ∧ (2 ^ 52 ≤ t * 2 ^ i / 2 ^ target ∨ target = -1074) := by
  have hpos : (0 : ℚ) < 2 ^ target := by positivity
  -- Both bounds are moved to the side of the exponents.
  rw [div_lt_iff₀ hpos, le_div_iff₀ hpos, ← zpow_ofNat, ← zpow_ofNat, ← zpow_add₀ two_ne_zero,
    ← zpow_add₀ two_ne_zero]
  constructor
  · exact (lt_zpow_log2 ht.2 i).trans_le (zpow_le_zpow_right₀ one_le_two (by omega))
  -- A zero is aimed at the least exponent.
  · obtain rfl | hn := n.eq_zero_or_pos
    · right
      rw [Nat.log2_zero] at htarget
      omega
    · by_cases hleast : target = -1074
      · exact .inr hleast
      -- The leading bit is then 52 places above the exponent that is aimed at.
      · left
        have hexponent : ((52 : ℕ) : ℤ) + target = n.log2 + i := by push_cast; omega
        have hlow := zpow_log2_le hn ht.1 i
        rwa [← hexponent] at hlow

/-- The second shift of rounding takes back a carry and changes nothing else. -/
theorem exists_shiftToTargetExponent_rounded {r : ℕ} {target : ℤ} (hleast : -1074 ≤ target)
    (hgreatest : target ≤ 971) (hr : r ≤ 2 ^ 53) (hlow : 2 ^ 52 ≤ r ∨ target = -1074)
    (htop : (r : ℚ) * 2 ^ target < greatest + greatestStep) :
    ∃ m e, shiftToTargetExponent Format.binary64 r target .exact = (⟨m, false, false⟩, e) ∧
      (m : ℚ) * 2 ^ e = r * 2 ^ target ∧ (m = 0 ∨ Canonical m e) := by
  -- A zero, a mantissa that fits as it is, or one that has been rounded up to the next power of
  -- two.
  obtain rfl | hpos := r.eq_zero_or_pos
  · obtain rfl : target = -1074 := hlow.resolve_left (by norm_num)
    exact ⟨0, -1074, rfl, rfl, .inl rfl⟩
  obtain hlt | rfl := hr.lt_or_eq
  · have hcanonical : Canonical r target := ⟨hpos, hlt, hleast, hgreatest, hlow⟩
    exact ⟨r, target, hcanonical.shiftToTargetExponent_eq, rfl, .inr hcanonical⟩
  · -- The carry would leave the range only at the greatest exponent.
    have hlt : target < 971 := by
      rw [greatest_add_greatestStep, Nat.cast_pow, Nat.cast_ofNat] at htop
      exact (zpow_lt_zpow_iff_right₀ one_lt_two).1 (lt_of_mul_lt_mul_left htop (by positivity))
    have hshift := shiftToTargetExponent_carry (by omega : -1074 < target + 1)
    rw [add_sub_cancel_right] at hshift
    refine ⟨2 ^ 52, target + 1, hshift, ?_,
      .inr ⟨by norm_num, by norm_num, by omega, by omega, .inl le_rfl⟩⟩
    rw [zpow_add_one₀ two_ne_zero]
    push_cast
    ring

/-- Where the number is not past the greatest floats, neither is the place that rounding keeps. -/
theorem target_le_greatest {u : ℚ} {target : ℤ} (hlow : 2 ^ 52 ≤ u ∨ target = -1074)
    -- At a greater exponent even the least mantissa of 53 bits would be out of range.
    (hv : u * 2 ^ target < greatest + greatestStep / 2) : target ≤ 971 := by
  obtain hlow | rfl := hlow
  · have hle : (2 : ℚ) ^ 52 * 2 ^ target ≤ u * 2 ^ target :=
      mul_le_mul_of_nonneg_right hlow (by positivity)
    have hlt : (2 : ℚ) ^ target < 2 ^ (971 : ℤ) * 2 := by
      have htop := greatest_add_greatestStep
      have hpos := greatestStep_pos
      show 2 ^ target < greatestStep * 2
      linarith
    rw [← zpow_add_one₀ two_ne_zero] at hlt
    have := (zpow_lt_zpow_iff_right₀ one_lt_two).1 hlt
    omega
  · omega

/-- **A rounded mantissa** is brought to its final place without a further error. In units of the
place that is kept, it is off by one half at most. -/
theorem Represents.exists_shiftToTargetExponent {em : ExtendedMantissa} {u : ℚ}
    (h : Represents em u) {target : ℤ} (hhigh : u < 2 ^ 53) (hleast : -1074 ≤ target)
    (hlow : 2 ^ 52 ≤ u ∨ target = -1074) (hv : u * 2 ^ target < greatest + greatestStep / 2) :
    ∃ m e, shiftToTargetExponent Format.binary64 em.roundedMantissa target .exact
        = (⟨m, false, false⟩, e) ∧
      |(m : ℚ) * 2 ^ e - u * 2 ^ target| ≤ greatestStep / 2 ∧ (m = 0 ∨ Canonical m e) := by
  have hunit : (0 : ℚ) < 2 ^ target := by positivity
  -- The exponent is in range before the rounding, and rounding is off by half a step at most.
  have hgreatest := target_le_greatest hlow hv
  have hstep : (2 : ℚ) ^ target ≤ greatestStep := zpow_le_zpow_right₀ one_le_two hgreatest
  have herror : |(em.roundedMantissa : ℚ) * 2 ^ target - u * 2 ^ target| ≤ greatestStep / 2 := by
    rw [← sub_mul, abs_mul, abs_of_pos hunit]
    calc |(em.roundedMantissa : ℚ) - u| * 2 ^ target ≤ 1 / 2 * greatestStep :=
          mul_le_mul h.abs_roundedMantissa_sub_le hstep hunit.le (by norm_num)
      _ = greatestStep / 2 := one_div_mul_eq_div ..
  have hhigh' : em.roundedMantissa ≤ 2 ^ 53 := h.roundedMantissa_le (by exact_mod_cast hhigh.le)
  have hlow' : 2 ^ 52 ≤ em.roundedMantissa ∨ target = -1074 :=
    hlow.imp_left fun hlow => h.le_roundedMantissa (by exact_mod_cast hlow)
  have htop : (em.roundedMantissa : ℚ) * 2 ^ target < greatest + greatestStep := by
    have := (abs_le.1 herror).2
    linarith
  -- What has been rounded is shifted once more if it was carried into another bit.
  obtain ⟨m, e, hfinal, hvalue, hm⟩ :=
    exists_shiftToTargetExponent_rounded hleast hgreatest hhigh' hlow' htop
  exact ⟨m, e, hfinal, hvalue ▸ herror, hm⟩

/-- **Rounding** comes within half a step of the greatest floats of a number that is not past them.
-/
theorem exists_roundWithAccuracy_near (h : Represents (.ofMantissaAndAccuracy n accuracy) t)
    (hbits : 2 ^ 52 ≤ n ∨ i ≤ -1074) (hv : t * 2 ^ i < greatest + greatestStep / 2) (sign : Sign) :
    ∃ (m : ℕ) (e : ℤ), |(m : ℚ) * 2 ^ e - t * 2 ^ i| ≤ greatestStep / 2 ∧
      (m = 0 ∧ roundWithAccuracy Format.binary64 sign n i accuracy = .zero sign ∨
        ∃ hm : Canonical m e,
          roundWithAccuracy Format.binary64 sign n i accuracy = .finite sign m e hm.pos) := by
  obtain ⟨em, hshift, hem⟩ := shiftToTargetExponent_eq h hbits
  -- Whichever way the residual bits have come, the number lies between two integers.
  have hbounds : (n : ℚ) ≤ t ∧ t < n + 1 := by
    have hn := h.bounds
    cases accuracy with
    | exact => exact hn
    | inexact half => cases half <;> exact hn
  -- Seen in units of the place that is kept, the number is one to be rounded to an integer.
  set target : ℤ := max ((n.log2 : ℤ) + i - 52) (-1074) with htarget
  set u : ℚ := t * 2 ^ i / 2 ^ target with hu
  obtain ⟨hhigh, hlow⟩ := target_bounds hbounds hbits htarget
  have hleast : -1074 ≤ target := le_max_right _ _
  have hexact : t * 2 ^ i = u * 2 ^ target := (div_mul_cancel₀ _ (by positivity)).symm
  rw [hexact] at hv ⊢
  obtain ⟨m, e, hfinal, herror, hm⟩ := hem.exists_shiftToTargetExponent hhigh hleast hlow hv
  refine ⟨m, e, herror, ?_⟩
  unfold roundWithAccuracy
  simp only [hshift, hfinal]
  -- The rounded mantissa is zero, or it is packed as it is.
  obtain rfl | hm := hm
  · exact .inl ⟨rfl, rfl⟩
  · exact .inr ⟨hm, dif_neg hm.pos.ne'⟩

theorem near_zero (sign : Sign) : Near (.ofModel (.pack (.zero sign))) 0 := by
  cases sign <;> exact near_self rfl

/-- **What rounding makes** is a float near the exact result. -/
theorem near_roundWithAccuracy (h : Represents (.ofMantissaAndAccuracy n accuracy) t)
    (hbits : 2 ^ 52 ≤ n ∨ i ≤ -1074) (hv : t * 2 ^ i < greatest + greatestStep / 2) (sign : Sign) :
    Near (.ofModel (.pack (roundWithAccuracy Format.binary64 sign n i accuracy)))
      (signFactor sign * (t * 2 ^ i)) := by
  obtain ⟨m, e, herror, ⟨rfl, hround⟩ | ⟨hm, hround⟩⟩ :=
    exists_roundWithAccuracy_near h hbits hv sign
  -- A mantissa that was rounded down to zero is as far off as any other.
  · rw [hround]
    refine ⟨(near_zero sign).finite, ?_⟩
    have hzero : value (.ofModel (.pack (.zero sign))) = 0 := by cases sign <;> rfl
    rwa [hzero, zero_sub, abs_neg, abs_signFactor_mul, ← abs_neg, ← zero_sub, ← zero_mul (2 ^ e),
      ← Nat.cast_zero]
  -- What has been packed is unpacked as it was.
  · rw [hround]
    refine ⟨isFinite_ofModel_pack hm sign, ?_⟩
    show |unpackedValue (Float.Model.pack (.finite sign m e hm.pos)).unpack - _| ≤ _
    rwa [unpack_pack hm, unpackedValue, ← mul_sub, abs_signFactor_mul]

end Rounding

/-- Zeros behind a mantissa are made up for by the exponent. -/
theorem shiftLeft_mul_zpow (m k : ℕ) (e : ℤ) :
    ((m <<< k : ℕ) : ℚ) * 2 ^ (e - k) = m * 2 ^ e := by
  rw [Nat.shiftLeft_eq, zpow_sub₀ two_ne_zero, zpow_natCast]
  push_cast
  field_simp

/-- A mantissa that is short of bits gets zeros behind it, but goes no further than the last place
of floats. -/
theorem exists_decreaseExponent {m : ℕ} (hpos : 0 < m) (e : ℤ) :
    ∃ k : ℕ, decreaseExponent m e (Format.binary64.targetExponent (totalExponent m e))
        = (m <<< k, e - k) ∧
      (2 ^ 52 ≤ m <<< k ∨ e - k ≤ -1074) ∧ (-1074 ≤ e → -1074 ≤ e - k) := by
  unfold decreaseExponent
  simp only [targetExponent_eq]
  refine ⟨_, rfl, ?_, ?_⟩
  -- The mantissa is shifted until it has 53 bits, or is at the least exponent.
  · set k : ℕ := (e - max ((m.log2 : ℤ) + e - 52) (-1074)).toNat with hk
    by_cases hleast : e - k ≤ -1074
    · exact .inr hleast
    · left
      rw [Nat.shiftLeft_eq]
      calc 2 ^ 52 ≤ 2 ^ (m.log2 + k) := Nat.pow_le_pow_right two_pos (by omega)
        _ = 2 ^ m.log2 * 2 ^ k := pow_add ..
        _ ≤ m * 2 ^ k := Nat.mul_le_mul_right _ (Nat.log2_self_le hpos.ne')
  · intro hleast
    omega

/-- A mantissa that is short of bits is rounded with zeros behind it. -/
theorem near_round {m : ℕ} {e : ℤ} (hpos : 0 < m) (hv : m * 2 ^ e < greatest + greatestStep / 2)
    (sign : Sign) :
    Near (.ofModel (.pack (UnpackedFloat.round Format.binary64 sign m e)))
      (signFactor sign * (m * 2 ^ e)) := by
  obtain ⟨k, hdecrease, hbits, -⟩ := exists_decreaseExponent hpos e
  unfold UnpackedFloat.round
  simp only [hdecrease]
  rw [← shiftLeft_mul_zpow m k e] at hv ⊢
  exact near_roundWithAccuracy (represents_exact _) hbits hv sign

/-- An integral mantissa with a sign of its own is rounded near what it stands for. -/
theorem near_normalize {k e : ℤ} (hv : |(k : ℚ) * 2 ^ e| < greatest + greatestStep / 2) :
    Near (.ofModel (.pack (UnpackedFloat.normalize Format.binary64 k e .positive)))
      (k * 2 ^ e) := by
  have hunit : (0 : ℚ) < 2 ^ e := by positivity
  rw [abs_mul, abs_of_pos hunit] at hv
  unfold UnpackedFloat.normalize
  -- By the sign of the integer, whose size is then rounded.
  obtain hneg | rfl | hpos := lt_trichotomy k 0
  · obtain ⟨m, hm⟩ := Int.eq_ofNat_of_zero_le (by omega : 0 ≤ -k)
    obtain rfl : k = -m := by omega
    rw [Int.compare_eq_lt.2 hneg]
    have hnear := near_round (by omega : 0 < m) (by simpa using hv) .negative
    simpa [signFactor] using hnear
  · rw [Int.compare_eq_eq.2 rfl]
    simpa using near_zero .positive
  · obtain ⟨m, rfl⟩ := Int.eq_ofNat_of_zero_le hpos.le
    rw [Int.compare_eq_gt.2 hpos]
    have hnear := near_round (by omega : 0 < m) (by simpa using hv) .positive
    simpa [signFactor] using hnear

/-! ### Sums and quotients -/

theorem value_of_zero {x : Float} {sign : Sign} (hx : x.toModel.unpack = .zero sign) :
    value x = 0 := by
  rw [value, hx, unpackedValue]
  nofun

theorem value_of_finite {x : Float} {sign : Sign} {m : ℕ} {e : ℤ} {h : 0 < m}
    (hx : x.toModel.unpack = .finite sign m e h) : value x = signFactor sign * (m * 2 ^ e) := by
  rw [value, hx, unpackedValue]

/-- A mantissa brought to a lesser exponent, with its sign. -/
theorem apply_decreaseExponent (sign : Sign) (m : ℕ) {e target : ℤ} (h : target ≤ e) :
    ((sign.apply (decreaseExponent m e target).1 : ℤ) : ℚ) * 2 ^ target
      = signFactor sign * (m * 2 ^ e) := by
  obtain ⟨k, hk⟩ := Int.eq_ofNat_of_zero_le (sub_nonneg.2 h)
  obtain rfl : target = e - k := by omega
  rw [← shiftLeft_mul_zpow m k e]
  unfold decreaseExponent
  simp only [hk, Int.toNat_natCast]
  generalize m <<< k = n
  cases sign <;> simp [Sign.apply, signFactor]

/-- **A sum of two floats** is near the exact sum, if that is not past the greatest floats. -/
theorem near_add {x y : Float} (hx : x.isFinite = true) (hy : y.isFinite = true)
    (hv : |value x + value y| < greatest + greatestStep / 2) :
    Near (x + y) (value x + value y) := by
  have hadd : x + y = .ofModel (.pack (UnpackedFloat.add Format.binary64 x.toModel.unpack
    y.toModel.unpack)) := rfl
  -- With a zero on either side the sum is the other summand.
  obtain ⟨sx, hx'⟩ | ⟨sx, mx, ex, hmx, hx'⟩ := unpack_of_isFinite hx
  · obtain ⟨sy, hy'⟩ | ⟨sy, my, ey, hmy, hy'⟩ := unpack_of_isFinite hy
    · rw [hadd, value_of_zero hx', value_of_zero hy', hx', hy', add_zero]
      cases sx <;> cases sy <;> exact near_zero _
    · have hsum : x + y = y := by
        rw [hadd, hx', hy']
        exact (congrArg (fun u => Float.ofModel (.pack u)) hy').symm.trans (ofModel_pack_unpack y)
      rw [hsum, value_of_zero hx', zero_add]
      exact near_self hy
  · obtain ⟨sy, hy'⟩ | ⟨sy, my, ey, hmy, hy'⟩ := unpack_of_isFinite hy
    · have hsum : x + y = x := by
        rw [hadd, hx', hy']
        exact (congrArg (fun u => Float.ofModel (.pack u)) hx').symm.trans (ofModel_pack_unpack x)
      rw [hsum, value_of_zero hy', add_zero]
      exact near_self hx
    · -- Both are brought to the lesser exponent, where the sum of the mantissas is exact.
      rw [value_of_finite hx', value_of_finite hy',
        ← apply_decreaseExponent sx mx (min_le_left ex ey),
        ← apply_decreaseExponent sy my (min_le_right ex ey), ← add_mul, ← Int.cast_add] at hv ⊢
      rw [hadd, hx', hy']
      exact near_normalize hv

/-- A count of at most 53 bits is a float itself. -/
theorem exists_ofNat_eq {n : ℕ} (hpos : 0 < n) (hlt : n < 2 ^ 53) :
    ∃ m e, ∃ hm : Canonical m e, Float.ofNat n = .ofModel (.pack (.finite .positive m e hm.pos)) ∧
      (m : ℚ) * 2 ^ e = n := by
  obtain ⟨k, -, -, hm, hvalue⟩ := exists_canonical_natCast hpos hlt
  refine ⟨n <<< k, -k, hm, ?_, hvalue⟩
  have hrounds := roundsTo_self (n <<< k) (-k)
  have hdigits : Digits.value ⟨n, 0⟩ = (n <<< k : ℕ) * 2 ^ (-(k : ℤ)) := by
    rw [hvalue, Digits.value, zpow_zero, mul_one]
  rw [← hdigits] at hrounds
  exact floatOfScientific_eq hpos hm hrounds

/-- **A quotient by a count** is near the exact quotient. -/
theorem near_div_ofNat {x : Float} (hx : x.isFinite = true) {n : ℕ} (hpos : 0 < n)
    (hlt : n < 2 ^ 53) : Near (x / Float.ofNat n) (value x / n) := by
  obtain ⟨m₂, e₂, hm₂, hn, hvalue⟩ := exists_ofNat_eq hpos hlt
  have hdiv : x / Float.ofNat n = .ofModel (.pack (UnpackedFloat.div Format.binary64
      x.toModel.unpack (.finite .positive m₂ e₂ hm₂.pos))) := by
    rw [hn]
    show Float.ofModel (.pack (UnpackedFloat.div Format.binary64 x.toModel.unpack
      (Float.Model.pack (.finite .positive m₂ e₂ hm₂.pos)).unpack)) = _
    rw [unpack_pack hm₂]
  obtain ⟨sign, hx'⟩ | ⟨sign, m, e, hm, hx'⟩ := unpack_of_isFinite hx
  · have hquotient : UnpackedFloat.div Format.binary64 (.zero sign)
        (.finite .positive m₂ e₂ hm₂.pos) = .zero (sign / .positive) := rfl
    rw [hdiv, value_of_zero hx', hx', hquotient, zero_div]
    exact near_zero _
  · have hsign : sign / .positive = sign := by cases sign <;> rfl
    obtain ⟨k, i, hcore, hquotient, hbits⟩ := divCore_eq hm hm₂.pos e e₂
    -- A quotient by a count is no greater than what is divided.
    have hv : ((m <<< k : ℕ) : ℚ) / m₂ * 2 ^ i < greatest + greatestStep / 2 := by
      have hle := abs_value_le x
      rw [value_of_finite hx', abs_signFactor_mul, abs_of_nonneg (by positivity)] at hle
      have hone : (1 : ℚ) ≤ n := by exact_mod_cast hpos
      have hquotient' : (m : ℚ) * 2 ^ e / n ≤ m * 2 ^ e := div_le_self (by positivity) hone
      have hstep := greatestStep_pos
      rw [hquotient, hvalue]
      linarith
    have hnear := near_roundWithAccuracy (represents_div _ hm₂.pos) hbits hv sign
    rw [hquotient, hvalue] at hnear
    rw [hdiv, value_of_finite hx', hx', mul_div_assoc]
    unfold UnpackedFloat.div
    simp only [hcore, hsign]
    exact hnear

end Scoresheet.Decimal
