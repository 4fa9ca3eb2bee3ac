import Mathlib
import Scoresheet.Decimal.Magnitude

/-!
# Rounding to a float

The exact result of an operation on floats is kept as a mantissa and two residual bits, and rounding
shifts it to the exponent of a float and goes to the nearest mantissa. Here this is said of rational
numbers: which of them round to a given float, and that what rounds to a float is rounded to it.

* `Represents` — what a mantissa with residual bits says about a number.
* `Canonical` — the mantissas and exponents of the floats other than zero.
* `RoundsTo` — the numbers between the midpoints to the neighbours of a float.
* `roundWithAccuracy_eq` — a number that rounds to a float is rounded to it.

The interval of `RoundsTo` is the same in which the shortest digits of a float are looked for, so
that whatever is written of a float and whatever is read as it meet there. What is delicate is the
lower end at a power of two: below it the floats are twice as dense, and a number there is shifted
to an exponent one less before the rounding carries it up again (`RoundsTo.exponent`,
`shiftToTargetExponent_carry`).
-/

namespace Scoresheet.Decimal

open Float.Model
open Float.Model.UnpackedFloat

/-! ### Mantissas with residual bits -/

/-- What a mantissa and its two residual bits say about a number, measured in units of the
mantissa's last place. -/
def Represents (em : ExtendedMantissa) (t : ℚ) : Prop :=
  match em.roundBit, em.stickyBit with
  | false, false => t = em.mantissa
  | false, true => (em.mantissa : ℚ) < t ∧ t < em.mantissa + 1 / 2
  | true, false => t = em.mantissa + 1 / 2
  | true, true => (em.mantissa : ℚ) + 1 / 2 < t ∧ t < em.mantissa + 1

/-- The number lies between the mantissa and the next one. -/
theorem Represents.bounds {em : ExtendedMantissa} {t : ℚ} (h : Represents em t) :
    (em.mantissa : ℚ) ≤ t ∧ t < em.mantissa + 1 := by
  obtain ⟨m, roundBit, stickyBit⟩ := em
  cases roundBit <;> cases stickyBit <;> simp only [Represents] at h ⊢ <;> constructor <;>
    linarith

/-- **Half a number,** in units twice as large: what was the last bit of the mantissa becomes the
first residual bit, and the second one remembers the rest. -/
theorem Represents.shiftRightOne {em : ExtendedMantissa} {t : ℚ} (h : Represents em t) :
    Represents em.shiftRightOne (t / 2) := by
  obtain ⟨m, roundBit, stickyBit⟩ := em
  have hm : (m : ℚ) = 2 * (m / 2 : ℕ) + (m % 2 : ℕ) := by exact_mod_cast (Nat.div_add_mod m 2).symm
  -- The last bit of the mantissa is the new first residual bit.
  obtain hbit | hbit : m % 2 = 0 ∨ m % 2 = 1 := by omega
  · have hshift : ExtendedMantissa.shiftRightOne ⟨m, roundBit, stickyBit⟩
        = ⟨m / 2, false, roundBit || stickyBit⟩ := by
      simp [ExtendedMantissa.shiftRightOne, hbit]
    rw [hbit, Nat.cast_zero] at hm
    rw [hshift]
    cases roundBit <;> cases stickyBit <;>
      simp only [Represents, Bool.or_false, Bool.or_true] at h ⊢ <;> (try constructor) <;> linarith
  · have hshift : ExtendedMantissa.shiftRightOne ⟨m, roundBit, stickyBit⟩
        = ⟨m / 2, true, roundBit || stickyBit⟩ := by
      simp [ExtendedMantissa.shiftRightOne, hbit]
    rw [hbit, Nat.cast_one] at hm
    rw [hshift]
    cases roundBit <;> cases stickyBit <;>
      simp only [Represents, Bool.or_false, Bool.or_true] at h ⊢ <;> (try constructor) <;> linarith

theorem Represents.shiftRight {em : ExtendedMantissa} {t : ℚ} (h : Represents em t) (n : ℕ) :
    Represents (em >>> n) (t / 2 ^ n) := by
  change Represents (n.repeat ExtendedMantissa.shiftRightOne em) _
  induction n with
  | zero => simpa [Nat.repeat] using h
  | succ n ih =>
    rw [pow_succ, ← div_div]
    exact ih.shiftRightOne

/-- **Rounding to the nearest mantissa,** where of two equally near ones the even one counts. -/
theorem Represents.roundedMantissa_eq {em : ExtendedMantissa} {t : ℚ} (h : Represents em t) {m : ℕ}
    (hlow : (m : ℚ) - 1 / 2 < t ∨ m % 2 = 0 ∧ t = m - 1 / 2)
    (hhigh : t < m + 1 / 2 ∨ m % 2 = 0 ∧ t = m + 1 / 2) : em.roundedMantissa = m := by
  have hlow' : (m : ℚ) - 1 / 2 ≤ t := hlow.elim le_of_lt fun h => h.2.ge
  have hhigh' : t ≤ m + 1 / 2 := hhigh.elim le_of_lt fun h => h.2.le
  -- The residual bits say on which side of the midpoint the number lies.
  obtain ⟨n, roundBit, stickyBit⟩ := em
  cases roundBit <;> cases stickyBit <;> simp only [Represents] at h <;>
    simp only [ExtendedMantissa.roundedMantissa, ExtendedMantissa.accuracy,
      Accuracy.roundToNearestEven]
  case false.false =>
    have hle : n < m + 1 := by exact_mod_cast (by linarith : (n : ℚ) < m + 1)
    have hge : m < n + 1 := by exact_mod_cast (by linarith : (m : ℚ) < n + 1)
    omega
  case false.true =>
    have hle : n < m + 1 := by exact_mod_cast (by linarith : (n : ℚ) < m + 1)
    have hge : m < n + 1 := by exact_mod_cast (by linarith : (m : ℚ) < n + 1)
    omega
  case true.false =>
    -- The number is a midpoint, so one of the two bounds is met, and the mantissa is even.
    have hle : n ≤ m := by exact_mod_cast (by linarith : (n : ℚ) ≤ m)
    have hge : m ≤ n + 1 := by exact_mod_cast (by linarith : (m : ℚ) ≤ n + 1)
    obtain rfl | rfl : m = n ∨ m = n + 1 := by omega
    · obtain hlt | ⟨heven, -⟩ := hhigh
      · linarith
      · omega
    · obtain hlt | ⟨heven, -⟩ := hlow
      · push_cast at hlt
        linarith
      · omega
  case true.true =>
    have hle : n < m := by exact_mod_cast (by linarith : (n : ℚ) < m)
    have hge : m < n + 2 := by exact_mod_cast (by linarith : (m : ℚ) < n + 2)
    omega

/-! ### Powers -/

/-- A power with an integral exponent as a quotient of two with natural ones. -/
theorem zpow_eq_div (a : ℚ) (i : ℤ) : a ^ i = a ^ i.toNat / a ^ (-i).toNat := by
  obtain ⟨k, rfl | rfl⟩ := i.eq_nat_or_neg
  · rw [Int.toNat_natCast, Int.toNat_neg_natCast, pow_zero, div_one, zpow_natCast]
  · rw [neg_neg, Int.toNat_natCast, Int.toNat_neg_natCast, pow_zero, zpow_neg, zpow_natCast,
      one_div]

/-! ### The floats other than zero -/

/-- The mantissas and exponents of the floats other than zero. -/
structure Canonical (m : ℕ) (e : ℤ) : Prop where
  pos : 0 < m
  lt : m < 2 ^ 53
  least_le : -1074 ≤ e
  le_greatest : e ≤ 971
  normal : 2 ^ 52 ≤ m ∨ e = -1074

theorem mantissaBits_binary64 : Format.binary64.mantissaBits = 53 := rfl

theorem minExponent_binary64 : Format.binary64.minExponent = -1074 := rfl

theorem exponentBias_binary64 : Format.binary64.exponentBias = 1023 := rfl

theorem targetExponent_eq (m : ℕ) (e : ℤ) :
    Format.binary64.targetExponent (totalExponent m e) = max (m.log2 + e - 52) (-1074) := by
  unfold Format.targetExponent totalExponent
  rw [mantissaBits_binary64, minExponent_binary64]
  push_cast
  ring_nf

/-- The exponent of a mantissa with all its bits is the one that rounding aims at, be it that of a
float or past the greatest ones. -/
theorem targetExponent_self {m : ℕ} {e : ℤ} (hpos : 0 < m) (hlt : m < 2 ^ 53) (hleast : -1074 ≤ e)
    (hnormal : 2 ^ 52 ≤ m ∨ e = -1074) :
    Format.binary64.targetExponent (totalExponent m e) = e := by
  have hlog : m.log2 < 53 := (Nat.log2_lt hpos.ne').2 hlt
  rw [targetExponent_eq]
  obtain hnormal | rfl := hnormal
  · have hlog' : 52 ≤ m.log2 := (Nat.le_log2 hpos.ne').2 hnormal
    omega
  · omega

/-- How far below a float the midpoint to the next one is, in units of its last place. Below a power
of two the floats are twice as dense, down to the subnormal ones. -/
def gapBelow (m : ℕ) (e : ℤ) : ℚ :=
  if m = 2 ^ 52 ∧ -1074 < e then 1 / 4 else 1 / 2

/-- **The numbers that round to a float:** those between the midpoints to its neighbours. A midpoint
itself rounds to the even mantissa. -/
structure RoundsTo (v : ℚ) (m : ℕ) (e : ℤ) : Prop where
  low : (m - gapBelow m e) * 2 ^ e < v ∨ m % 2 = 0 ∧ v = (m - gapBelow m e) * 2 ^ e
  high : v < (m + 1 / 2) * 2 ^ e ∨ m % 2 = 0 ∧ v = (m + 1 / 2) * 2 ^ e

theorem gapBelow_le (m : ℕ) (e : ℤ) : gapBelow m e ≤ 1 / 2 := by
  unfold gapBelow
  split <;> norm_num

theorem gapBelow_pos (m : ℕ) (e : ℤ) : 0 < gapBelow m e := by
  unfold gapBelow
  split <;> norm_num

/-- A float rounds to itself. -/
theorem roundsTo_self (m : ℕ) (e : ℤ) : RoundsTo (m * 2 ^ e) m e := by
  have hpos : (0 : ℚ) < 2 ^ e := by positivity
  have hgap := gapBelow_pos m e
  exact ⟨.inl (mul_lt_mul_of_pos_right (by linarith) hpos),
    .inl (mul_lt_mul_of_pos_right (by linarith) hpos)⟩

theorem RoundsTo.le {v : ℚ} {m : ℕ} {e : ℤ} (h : RoundsTo v m e) :
    (m - gapBelow m e) * 2 ^ e ≤ v ∧ v ≤ (m + 1 / 2) * 2 ^ e :=
  ⟨h.low.elim le_of_lt fun h => h.2.ge, h.high.elim le_of_lt fun h => h.2.le⟩

private theorem two_zpow_add (n : ℕ) (e : ℤ) : (2 : ℚ) ^ ((n : ℤ) + e) = 2 ^ n * 2 ^ e := by
  rw [zpow_add₀ two_ne_zero, zpow_natCast]

/-- In units of the last place of the float, the number is nearest to its mantissa. -/
theorem RoundsTo.nearest {v : ℚ} {m : ℕ} {e : ℤ} (h : RoundsTo v m e) :
    ((m : ℚ) - 1 / 2 < v / 2 ^ e ∨ m % 2 = 0 ∧ v / 2 ^ e = m - 1 / 2) ∧
      (v / 2 ^ e < m + 1 / 2 ∨ m % 2 = 0 ∧ v / 2 ^ e = m + 1 / 2) := by
  have hpos : (0 : ℚ) < 2 ^ e := by positivity
  rw [lt_div_iff₀ hpos, div_lt_iff₀ hpos, div_eq_iff hpos.ne', div_eq_iff hpos.ne']
  refine ⟨?_, h.high⟩
  -- Where the interval is narrower below, its end is well above the midpoint of two mantissas.
  obtain hgap | hgap := (gapBelow_le m e).lt_or_eq
  · left
    refine lt_of_lt_of_le ?_ h.le.1
    exact mul_lt_mul_of_pos_right (by linarith) hpos
  · have hlow := h.low
    rwa [hgap] at hlow

/-- Just below a power of two, in units of the last place of the lesser floats, the number is
nearest to the power. -/
theorem RoundsTo.nearest_power {v : ℚ} {e : ℤ} (h : RoundsTo v (2 ^ 52) e) (he : -1074 < e)
    (hlt : v < 2 ^ (52 + e)) :
    ((2 ^ 53 : ℕ) : ℚ) - 1 / 2 ≤ v / 2 ^ (e - 1) ∧ v / 2 ^ (e - 1) < (2 ^ 53 : ℕ) := by
  have hpos : (0 : ℚ) < 2 ^ (e - 1) := by positivity
  have hdouble : (2 : ℚ) ^ e = 2 * 2 ^ (e - 1) := by
    rw [← zpow_one_add₀ two_ne_zero, add_sub_cancel]
  rw [le_div_iff₀ hpos, div_lt_iff₀ hpos]
  -- In units of the lower exponent, the quarter below the power of two is half a unit.
  constructor
  · have hgap : gapBelow (2 ^ 52) e = 1 / 4 := if_pos ⟨rfl, he⟩
    have hlow := h.le.1
    rw [hgap, hdouble] at hlow
    push_cast at hlow ⊢
    linarith
  · rw [zpow_add₀ two_ne_zero, zpow_ofNat, hdouble] at hlt
    push_cast
    linarith

/-- A number rounds to a float below the next power of two. -/
theorem RoundsTo.lt_zpow {v : ℚ} {m : ℕ} {e : ℤ} (h : RoundsTo v m e) (hm : Canonical m e) :
    v < 2 ^ (53 + e) := by
  have hpos : (0 : ℚ) < 2 ^ e := by positivity
  have hlt : (m : ℚ) + 1 ≤ 2 ^ 53 := by exact_mod_cast hm.lt
  calc v ≤ (m + 1 / 2) * 2 ^ e := h.le.2
    _ < 2 ^ 53 * 2 ^ e := by
      refine mul_lt_mul_of_pos_right ?_ hpos
      linarith
    _ = 2 ^ (53 + e) := by rw [zpow_add₀ two_ne_zero, zpow_ofNat]

/-- A number short of the float's order of magnitude rounds to a power of two, and is no smaller
than half of it. -/
theorem RoundsTo.eq_power_of_lt {v : ℚ} {m : ℕ} {e : ℤ} (h : RoundsTo v m e) (hm : 2 ^ 52 ≤ m)
    (hlt : v < 2 ^ (52 + e)) : m = 2 ^ 52 ∧ (2 : ℚ) ^ (51 + e) ≤ v := by
  have hpos : (0 : ℚ) < 2 ^ e := by positivity
  have hgap := gapBelow_le m e
  have hpower : m = 2 ^ 52 := by
    -- The interval of a greater mantissa starts at the power of two or above it.
    by_contra hne
    have hsucc : (2 : ℚ) ^ 52 + 1 ≤ m := by exact_mod_cast (by omega : 2 ^ 52 + 1 ≤ m)
    refine absurd (le_trans ?_ h.le.1) (not_le.2 hlt)
    rw [zpow_add₀ two_ne_zero, zpow_ofNat]
    exact mul_le_mul_of_nonneg_right (by linarith) hpos.le
  refine ⟨hpower, le_trans ?_ h.le.1⟩
  rw [zpow_add₀ two_ne_zero, zpow_ofNat]
  refine mul_le_mul_of_nonneg_right ?_ hpos.le
  rw [hpower] at hgap ⊢
  push_cast
  linarith

/-- The binary order of magnitude of a number, by that of its integral part. -/
theorem lt_zpow_log2 {t : ℚ} {n : ℕ} (ht : t < n + 1) (i : ℤ) :
    t * 2 ^ i < 2 ^ ((n.log2 : ℤ) + 1 + i) := by
  have hpos : (0 : ℚ) < 2 ^ i := by positivity
  have hn : (n : ℚ) + 1 ≤ 2 ^ (n.log2 + 1) := by exact_mod_cast Nat.lt_log2_self
  have hcast : ((n.log2 : ℤ) + 1) = ((n.log2 + 1 : ℕ) : ℤ) := by push_cast; rfl
  rw [hcast, two_zpow_add]
  exact mul_lt_mul_of_pos_right (by linarith) hpos

theorem zpow_log2_le {t : ℚ} {n : ℕ} (hn : 0 < n) (ht : n ≤ t) (i : ℤ) :
    2 ^ ((n.log2 : ℤ) + i) ≤ t * 2 ^ i := by
  have hpos : (0 : ℚ) < 2 ^ i := by positivity
  have hn' : (2 : ℚ) ^ n.log2 ≤ n := by exact_mod_cast Nat.log2_self_le hn.ne'
  rw [two_zpow_add]
  exact mul_le_mul_of_nonneg_right (by linarith) hpos.le

/-- **Which exponent rounding aims at.** It is the exponent of the float, but just below a power of
two it is one less. -/
theorem RoundsTo.exponent {t : ℚ} {n : ℕ} {i : ℤ} {m : ℕ} {e : ℤ} (h : RoundsTo (t * 2 ^ i) m e)
    (hm : Canonical m e) (ht : (n : ℚ) ≤ t ∧ t < n + 1) (hbits : 2 ^ 52 ≤ n ∨ i ≤ -1074) :
    max (n.log2 + i - 52) (-1074) = e ∨
      m = 2 ^ 52 ∧ -1074 < e ∧ max (n.log2 + i - 52) (-1074) = e - 1 ∧
        t * 2 ^ i < 2 ^ (52 + e) := by
  have hleast := hm.least_le
  have hbelow := lt_zpow_log2 ht.2 i
  have habove : n.log2 + i < 53 + e := by
    obtain rfl | hn := Nat.eq_zero_or_pos n
    · rw [Nat.log2_zero]
      omega
    · exact (zpow_lt_zpow_iff_right₀ one_lt_two).1
        (lt_of_le_of_lt (zpow_log2_le hn ht.1 i) (h.lt_zpow hm))
  -- The least exponent is aimed at however small the number is.
  by_cases hsubnormal : e = -1074
  · left
    omega
  by_cases hle : (2 : ℚ) ^ (52 + e) ≤ t * 2 ^ i
  · have hlt := (zpow_lt_zpow_iff_right₀ one_lt_two).1 (lt_of_le_of_lt hle hbelow)
    left
    omega
  · rw [not_le] at hle
    obtain ⟨hpower, hhalf⟩ := h.eq_power_of_lt (hm.normal.resolve_right hsubnormal) hle
    have hlt := (zpow_lt_zpow_iff_right₀ one_lt_two).1 (lt_of_le_of_lt hhalf hbelow)
    by_cases heq : max ((n.log2 : ℤ) + i - 52) (-1074) = e
    · exact .inl heq
    · exact .inr ⟨hpower, by omega, by omega, hle⟩

/-! ### Rounding -/

/-- The shift towards the exponent that rounding aims at, of a mantissa with bits enough. -/
theorem shiftToTargetExponent_eq {n : ℕ} {i : ℤ} {accuracy : Accuracy} {t : ℚ}
    (h : Represents (.ofMantissaAndAccuracy n accuracy) t) (hbits : 2 ^ 52 ≤ n ∨ i ≤ -1074) :
    ∃ em, shiftToTargetExponent Format.binary64 n i accuracy
        = (em, max (n.log2 + i - 52) (-1074)) ∧
      Represents em (t * 2 ^ i / 2 ^ max (n.log2 + i - 52) (-1074)) := by
  -- A mantissa with bits enough is never shifted to the left.
  have hle : i ≤ max (n.log2 + i - 52) (-1074) := by
    obtain hn | hi := hbits
    · have hlog : 52 ≤ n.log2 := (Nat.le_log2 (by omega)).2 hn
      omega
    · omega
  unfold shiftToTargetExponent shiftToExponent
  simp only [targetExponent_eq]
  generalize max ((n.log2 : ℤ) + i - 52) (-1074) = target at hle ⊢
  obtain ⟨k, rfl⟩ := Int.le.dest hle
  have hshift : (i + k - i).toNat = k := by omega
  rw [hshift]
  refine ⟨_, rfl, ?_⟩
  have hvalue : t * 2 ^ i / 2 ^ (i + (k : ℤ)) = t / 2 ^ k := by
    rw [zpow_add₀ two_ne_zero, zpow_natCast, mul_comm t, mul_div_mul_left _ _ (by positivity)]
  rw [hvalue]
  exact h.shiftRight k

/-- A mantissa with all its bits is left as it is. -/
theorem shiftToTargetExponent_self {m : ℕ} {e : ℤ} (hpos : 0 < m) (hlt : m < 2 ^ 53)
    (hleast : -1074 ≤ e) (hnormal : 2 ^ 52 ≤ m ∨ e = -1074) :
    shiftToTargetExponent Format.binary64 m e .exact = (⟨m, false, false⟩, e) := by
  unfold shiftToTargetExponent shiftToExponent
  simp only [targetExponent_self hpos hlt hleast hnormal, sub_self, Int.toNat_zero, Nat.cast_zero,
    add_zero]
  rfl

/-- A float is left as it is. -/
theorem Canonical.shiftToTargetExponent_eq {m : ℕ} {e : ℤ} (h : Canonical m e) :
    shiftToTargetExponent Format.binary64 m e .exact = (⟨m, false, false⟩, e) :=
  shiftToTargetExponent_self h.pos h.lt h.least_le h.normal

/-- A mantissa that has become too long by rounding is a power of two, and is halved. -/
theorem shiftToTargetExponent_carry {e : ℤ} (h : -1074 < e) :
    shiftToTargetExponent Format.binary64 (2 ^ 53) (e - 1) .exact
      = (⟨2 ^ 52, false, false⟩, e) := by
  have htarget : Format.binary64.targetExponent (totalExponent (2 ^ 53) (e - 1)) = e := by
    rw [targetExponent_eq, Nat.log2_two_pow]
    omega
  unfold shiftToTargetExponent shiftToExponent
  have hshift : (e - (e - 1)).toNat = 1 := by omega
  simp only [htarget, hshift]
  refine Prod.ext rfl ?_
  push_cast
  ring

/-- **What rounds to a float is rounded to it.** The number is told by a mantissa, its exponent and
how much the mantissa is short of it. -/
theorem roundWithAccuracy_eq {n : ℕ} {i : ℤ} {accuracy : Accuracy} {t : ℚ} {m : ℕ} {e : ℤ}
    (h : Represents (.ofMantissaAndAccuracy n accuracy) t) (hbits : 2 ^ 52 ≤ n ∨ i ≤ -1074)
    (hm : Canonical m e) (hrounds : RoundsTo (t * 2 ^ i) m e) (sign : Sign) :
    roundWithAccuracy Format.binary64 sign n i accuracy = .finite sign m e hm.pos := by
  -- The mantissa is shifted to the exponent that is aimed at, and rounded there.
  obtain ⟨em, hshift, hem⟩ := shiftToTargetExponent_eq h hbits
  -- Whichever way the residual bits have come, the number lies between two integers.
  have hbounds : (n : ℚ) ≤ t ∧ t < n + 1 := by
    have hn := h.bounds
    cases accuracy with
    | exact => exact hn
    | inexact half => cases half <;> exact hn
  unfold roundWithAccuracy
  rw [hshift]
  obtain htarget | ⟨rfl, hleast, htarget, hlt⟩ := hrounds.exponent hm hbounds hbits
  · -- The mantissa that rounding gives is that of the float, and the second shift leaves it.
    rw [htarget] at hem ⊢
    have hmantissa : em.roundedMantissa = m :=
      hem.roundedMantissa_eq hrounds.nearest.1 hrounds.nearest.2
    simp only [hmantissa, hm.shiftToTargetExponent_eq, hm.pos.ne', dite_false]
  · -- Rounding carries into a bit too many, and the second shift takes it back.
    rw [htarget] at hem ⊢
    obtain ⟨hlow, hhigh⟩ := hrounds.nearest_power hleast hlt
    have hmantissa : em.roundedMantissa = 2 ^ 53 :=
      hem.roundedMantissa_eq (hlow.lt_or_eq.imp_right fun h => ⟨rfl, h.symm⟩)
        (.inl (hhigh.trans (by norm_num)))
    simp only [hmantissa, shiftToTargetExponent_carry hleast, hm.pos.ne', dite_false]

end Scoresheet.Decimal
