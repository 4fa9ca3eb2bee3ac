import Scoresheet.Decimal.Reading
import Scoresheet.Proofs.Decimal.Packing

/-!
# Reading a decimal

A decimal of few digits and a small exponent is read as a product or a quotient of two floats that
are exact, any other by one operation on longer mantissas. In either way the exact value is rounded
once, so that a decimal that rounds to a float is read as that float.

* `mul_eq`, `div_eq` — a product or quotient whose exact value rounds to a float is that float.
* `Digits.value` — the number that a decimal denotes.
* `exponent_range` — no decimal near a float is cut off for its exponent.
* `exists_unpack_toFloat`, `exists_unpack_power` — the operands of the short way are exact.
* `nearest_eq` — the float nearest to a decimal.
-/

namespace Scoresheet.Decimal

open Float.Model
open Float.Model.UnpackedFloat

/-! ### Products and quotients -/

theorem represents_exact (n : ℕ) : Represents (.ofMantissaAndAccuracy n .exact) n := rfl

/-- A quotient is told by the integral quotient and by how much of the divisor remains. -/
theorem represents_div (n : ℕ) {d : ℕ} (hd : 0 < d) :
    Represents (.ofMantissaAndAccuracy (n / d) (accuracyOfFraction (n % d) d)) ((n : ℚ) / d) := by
  have hpos : (0 : ℚ) < d := by exact_mod_cast hd
  have hdiv : (n : ℚ) / d = (n / d : ℕ) + (n % d : ℕ) / d := by
    rw [div_eq_iff hpos.ne', add_mul, div_mul_cancel₀ _ hpos.ne']
    exact_mod_cast (Nat.div_add_mod' n d).symm
  have hlt : n % d < d := Nat.mod_lt n hd
  rw [hdiv]
  generalize n / d = q
  generalize n % d = r at hlt ⊢
  unfold accuracyOfFraction
  split
  · rename_i hzero
    rw [hzero, Nat.cast_zero, zero_div, add_zero]
    exact represents_exact q
  · rename_i hzero
    have hr : (0 : ℚ) < r := by exact_mod_cast Nat.pos_of_ne_zero hzero
    have hlt' : (r : ℚ) < d := by exact_mod_cast hlt
    have hfraction : 0 < (r : ℚ) / d := div_pos hr hpos
    have hone : (r : ℚ) / d < 1 := (div_lt_one hpos).2 hlt'
    -- The residual bits come of comparing twice the remainder with the divisor.
    obtain hhalf | hhalf | hhalf := lt_trichotomy (2 * r) d
    · have hhalf' : (r : ℚ) / d < 1 / 2 := by
        rw [div_lt_div_iff₀ hpos two_pos, mul_comm, one_mul]
        exact_mod_cast hhalf
      rw [Nat.compare_eq_lt.2 hhalf]
      show (q : ℚ) < q + r / d ∧ (q : ℚ) + r / d < q + 1 / 2
      exact ⟨by linarith, by linarith⟩
    · have hhalf' : (r : ℚ) / d = 1 / 2 := by
        rw [div_eq_div_iff hpos.ne' two_ne_zero, mul_comm, one_mul]
        exact_mod_cast hhalf
      rw [Nat.compare_eq_eq.2 hhalf, hhalf']
      exact rfl
    · have hhalf' : 1 / 2 < (r : ℚ) / d := by
        rw [div_lt_div_iff₀ two_pos hpos, mul_comm (r : ℚ), one_mul]
        exact_mod_cast hhalf
      rw [Nat.compare_eq_gt.2 hhalf]
      show (q : ℚ) + 1 / 2 < q + r / d ∧ (q : ℚ) + r / d < q + 1
      exact ⟨by linarith, by linarith⟩

/-- **A product** whose exact value rounds to a float is that float. -/
theorem mul_eq {s₁ s₂ : Sign} {m₁ m₂ : ℕ} {e₁ e₂ : ℤ} {h₁ : 0 < m₁} {h₂ : 0 < m₂} {m : ℕ} {e : ℤ}
    (hm : Canonical m e) (hbits : 2 ^ 52 ≤ m₁ * m₂)
    (hrounds : RoundsTo (m₁ * 2 ^ e₁ * (m₂ * 2 ^ e₂)) m e) :
    UnpackedFloat.mul Format.binary64 (.finite s₁ m₁ e₁ h₁) (.finite s₂ m₂ e₂ h₂)
      = .finite (s₁ * s₂) m e hm.pos := by
  have hvalue : (m₁ * 2 ^ e₁ * (m₂ * 2 ^ e₂) : ℚ) = (m₁ * m₂ : ℕ) * 2 ^ (e₁ + e₂) := by
    rw [zpow_add₀ two_ne_zero]
    push_cast
    ring
  rw [hvalue] at hrounds
  exact roundWithAccuracy_eq (represents_exact _) (.inl hbits) hm hrounds _

/-- The parts of a quotient: the dividend is shifted by `k` bits, and the integral quotient has bits
enough. -/
theorem divCore_eq {m₁ m₂ : ℕ} (h₁ : 0 < m₁) (h₂ : 0 < m₂) (e₁ e₂ : ℤ) :
    ∃ (k : ℕ) (i : ℤ),
      divCore Format.binary64 m₁ e₁ m₂ e₂
        = ((m₁ <<< k) / m₂, i, accuracyOfFraction ((m₁ <<< k) % m₂) m₂) ∧
      (((m₁ <<< k : ℕ) : ℚ) / m₂) * 2 ^ i = m₁ * 2 ^ e₁ / (m₂ * 2 ^ e₂) ∧
      (2 ^ 52 ≤ (m₁ <<< k) / m₂ ∨ i ≤ -1074) := by
  have htarget : Format.binary64.targetExponent (totalExponent m₁ e₁ - totalExponent m₂ e₂)
      = max (m₁.log2 + e₁ - (m₂.log2 + e₂) - 53) (-1074) := by
    unfold Format.targetExponent totalExponent
    rw [mantissaBits_binary64, minExponent_binary64]
    push_cast
    ring_nf
  unfold divCore
  rw [htarget]
  dsimp only
  generalize hi : min (e₁ - e₂) (max (m₁.log2 + e₁ - (m₂.log2 + e₂) - 53) (-1074)) = i
  obtain ⟨k, hk⟩ := Int.eq_ofNat_of_zero_le (by omega : 0 ≤ e₁ - e₂ - i)
  rw [hk, Int.toNat_natCast]
  refine ⟨k, i, rfl, ?_, ?_⟩
  · obtain rfl : e₁ = e₂ + i + k := by omega
    rw [Nat.shiftLeft_eq, zpow_add₀ two_ne_zero, zpow_add₀ two_ne_zero, zpow_natCast]
    have hpos : (2 : ℚ) ^ e₂ ≠ 0 := by positivity
    have hpos' : (m₂ : ℚ) ≠ 0 := by exact_mod_cast h₂.ne'
    push_cast
    field_simp
  · by_cases hleast : i ≤ -1074
    · exact .inr hleast
    · left
      rw [Nat.le_div_iff_mul_le h₂, Nat.shiftLeft_eq]
      -- The shift makes up for the divisor's bits and leaves 53 more.
      calc 2 ^ 52 * m₂ ≤ 2 ^ 52 * 2 ^ (m₂.log2 + 1) :=
            Nat.mul_le_mul_left _ Nat.lt_log2_self.le
        _ = 2 ^ (m₂.log2 + 53) := by rw [← pow_add]; congr 1; omega
        _ ≤ 2 ^ (m₁.log2 + k) := Nat.pow_le_pow_right two_pos (by omega)
        _ = 2 ^ m₁.log2 * 2 ^ k := pow_add ..
        _ ≤ m₁ * 2 ^ k := Nat.mul_le_mul_right _ (Nat.log2_self_le h₁.ne')

/-- **A quotient** whose exact value rounds to a float is that float. -/
theorem div_eq {s₁ s₂ : Sign} {m₁ m₂ : ℕ} {e₁ e₂ : ℤ} {h₁ : 0 < m₁} {h₂ : 0 < m₂} {m : ℕ} {e : ℤ}
    (hm : Canonical m e) (hrounds : RoundsTo (m₁ * 2 ^ e₁ / (m₂ * 2 ^ e₂)) m e) :
    UnpackedFloat.div Format.binary64 (.finite s₁ m₁ e₁ h₁) (.finite s₂ m₂ e₂ h₂)
      = .finite (s₁ / s₂) m e hm.pos := by
  -- The dividend is shifted so far that the integral quotient has bits enough.
  obtain ⟨k, i, hcore, hvalue, hbits⟩ := divCore_eq h₁ h₂ e₁ e₂
  rw [← hvalue] at hrounds
  unfold UnpackedFloat.div
  simp only [hcore]
  exact roundWithAccuracy_eq (represents_div _ h₂) hbits hm hrounds _

/-! ### Decimals -/

/-- The number that a decimal denotes. -/
def Digits.value (d : Digits) : ℚ :=
  d.digits * 10 ^ d.exponent

/-- What rounds to a float other than zero is neither too small nor too great. -/
theorem RoundsTo.range {v : ℚ} {m : ℕ} {e : ℤ} (h : RoundsTo v m e) (hm : Canonical m e) :
    (2 : ℚ) ^ (-1075 : ℤ) ≤ v ∧ v < 2 ^ 1024 := by
  have hleast := hm.least_le
  have hgreatest := hm.le_greatest
  -- The least number that is rounded to a float is half of the least float, and every float has a
  -- mantissa of 53 bits.
  constructor
  · have hpos : (0 : ℚ) < 2 ^ e := by positivity
    have hone : (1 : ℚ) ≤ m := by exact_mod_cast hm.pos
    have hgap := gapBelow_le m e
    calc (2 : ℚ) ^ (-1075 : ℤ) ≤ 2 ^ (-1 + e) := zpow_le_zpow_right₀ one_le_two (by omega)
      _ = 1 / 2 * 2 ^ e := by rw [zpow_add₀ two_ne_zero]; norm_num
      _ ≤ (m - gapBelow m e) * 2 ^ e := mul_le_mul_of_nonneg_right (by linarith) hpos.le
      _ ≤ v := h.le.1
  · calc v < 2 ^ (53 + e) := h.lt_zpow hm
      _ ≤ 2 ^ (1024 : ℤ) := zpow_le_zpow_right₀ one_le_two (by omega)
      _ = 2 ^ 1024 := by rw [zpow_ofNat]

/-- No zero rounds to a float with a mantissa. -/
theorem RoundsTo.digits_pos {d : Digits} {m : ℕ} {e : ℤ} (h : RoundsTo d.value m e)
    (hm : Canonical m e) : 0 < d.digits := by
  rw [Nat.pos_iff_ne_zero]
  intro hzero
  have hpos : (0 : ℚ) < d.value := lt_of_lt_of_le (by positivity) (h.range hm).1
  simp [Digits.value, hzero] at hpos

/-- A power of ten is greater than the power of two with three times its exponent. -/
theorem two_pow_le_ten_pow (n : ℕ) : (2 : ℚ) ^ (3 * n) ≤ 10 ^ n := by
  rw [pow_mul]
  exact pow_le_pow_left₀ (by norm_num) (by norm_num) n

section Range

variable {digits : ℕ} {exponent : ℤ}

theorem exponent_le_of_value_lt (hdigits : 0 < digits)
    (h : Digits.value ⟨digits, exponent⟩ < 2 ^ 1024) : exponent ≤ 400 := by
  by_contra hlt
  -- Ten to a greater exponent is out of the range by itself.
  have hpos : (0 : ℚ) < 10 ^ exponent := by positivity
  have hone : (1 : ℚ) ≤ digits := by exact_mod_cast hdigits
  have hgreat : (2 : ℚ) ^ 1024 ≤ Digits.value ⟨digits, exponent⟩ := by
    calc (2 : ℚ) ^ 1024 ≤ 2 ^ (3 * 401) := pow_le_pow_right₀ one_le_two (by omega)
      _ ≤ 10 ^ 401 := two_pow_le_ten_pow 401
      _ = 10 ^ (401 : ℤ) := by rw [zpow_ofNat]
      _ ≤ 10 ^ exponent := zpow_le_zpow_right₀ (by norm_num) (by omega)
      _ ≤ digits * 10 ^ exponent := le_mul_of_one_le_left hpos.le hone
  exact absurd hgreat (not_le.2 h)

theorem le_exponent_of_le_value (h : (2 : ℚ) ^ (-1075 : ℤ) ≤ Digits.value ⟨digits, exponent⟩) :
    -400 ≤ exponent + digits.log2 := by
  -- With an exponent that low, the number would be rounded to zero.
  by_contra hlt
  have hpos : (0 : ℚ) < 10 ^ exponent := by positivity
  -- The digits have as many bits as their logarithm says, and no more decimal digits than that.
  have hdigits : (digits : ℚ) ≤ 2 * 10 ^ digits.log2 := by
    have hlog : digits ≤ 2 ^ digits.log2 * 2 := by
      rw [← pow_succ]
      exact Nat.lt_log2_self.le
    have hpow : 2 ^ digits.log2 ≤ 10 ^ digits.log2 := Nat.pow_le_pow_left (by norm_num) _
    exact_mod_cast (by omega : digits ≤ 2 * 10 ^ digits.log2)
  have hsmall : Digits.value ⟨digits, exponent⟩ < 2 ^ (-1075 : ℤ) := by
    calc Digits.value ⟨digits, exponent⟩ ≤ 2 * 10 ^ digits.log2 * 10 ^ exponent :=
          mul_le_mul_of_nonneg_right hdigits hpos.le
      _ = 2 * 10 ^ (digits.log2 + exponent) := by
          rw [zpow_add₀ (by norm_num), zpow_natCast, mul_assoc]
      _ ≤ 2 * 10 ^ (-401 : ℤ) := by
          refine mul_le_mul_of_nonneg_left ?_ two_pos.le
          exact zpow_le_zpow_right₀ (by norm_num) (by omega)
      _ ≤ 2 * 2 ^ (-1203 : ℤ) := by
          refine mul_le_mul_of_nonneg_left ?_ two_pos.le
          rw [zpow_neg, zpow_neg, zpow_ofNat, zpow_ofNat]
          exact inv_anti₀ (by positivity) (two_pow_le_ten_pow 401)
      _ = 2 ^ (-1202 : ℤ) := by
          rw [← zpow_one_add₀ two_ne_zero]
          rfl
      _ < 2 ^ (-1075 : ℤ) := zpow_lt_zpow_right₀ one_lt_two (by omega)
  exact absurd h (not_le.2 hsmall)

/-- A decimal that rounds to a float other than zero has no extreme exponent. -/
theorem exponent_range (hdigits : 0 < digits) {m : ℕ} {e : ℤ} (hm : Canonical m e)
    (h : RoundsTo (Digits.value ⟨digits, exponent⟩) m e) :
    exponent ≤ 400 ∧ -400 ≤ exponent + digits.log2 :=
  ⟨exponent_le_of_value_lt hdigits (h.range hm).2, le_exponent_of_le_value (h.range hm).1⟩

end Range

/-- **A decimal that rounds to a float** is read as that float. -/
theorem ofScientific_eq {digits : ℕ} (hdigits : 0 < digits) {exponent : ℤ} {m : ℕ} {e : ℤ}
    (hm : Canonical m e) (h : RoundsTo (Digits.value ⟨digits, exponent⟩) m e) :
    UnpackedFloat.ofScientific Format.binary64 digits exponent = .finite .positive m e hm.pos := by
  -- Neither of the two ways out is taken that exponents far outside the range have.
  obtain ⟨hexponent, hexponent'⟩ := exponent_range hdigits hm h
  have hgreat : ¬ exponent > 2 ^ Format.binary64.exponentBits := by
    norm_num
    omega
  have hsmall : ¬ exponent < -((2 ^ Format.binary64.exponentBits : ℤ) + digits.log2) := by
    norm_num
    omega
  unfold UnpackedFloat.ofScientific
  rw [dif_neg hdigits.ne', if_neg hgreat, if_neg hsmall]
  unfold Digits.value at h
  split
  · -- A product with a power of ten, where the digits are padded to have bits enough.
    obtain ⟨k, rfl⟩ := Int.eq_ofNat_of_zero_le ‹0 ≤ exponent›
    have hbits : 2 ^ 52 ≤ digits <<< Format.binary64.mantissaBits * 10 ^ (k : ℤ).toNat := by
      rw [mantissaBits_binary64, Nat.shiftLeft_eq]
      calc 2 ^ 52 ≤ 1 * 2 ^ 53 * 1 := by norm_num
        _ ≤ digits * 2 ^ 53 * 10 ^ (k : ℤ).toNat :=
          Nat.mul_le_mul (Nat.mul_le_mul_right _ hdigits) (Nat.one_le_pow _ _ (by norm_num))
    have hvalue : ((digits <<< Format.binary64.mantissaBits : ℕ) : ℚ)
        * 2 ^ (-(Format.binary64.mantissaBits : ℤ)) * ((10 ^ (k : ℤ).toNat : ℕ) * 2 ^ (0 : ℤ))
          = digits * 10 ^ (k : ℤ) := by
      have hpos : (2 : ℚ) ^ (53 : ℕ) ≠ 0 := by positivity
      rw [mantissaBits_binary64, Nat.shiftLeft_eq, Int.toNat_natCast, zpow_neg, zpow_natCast,
        zpow_natCast, zpow_zero, mul_one, Nat.cast_mul, Nat.cast_pow, Nat.cast_pow, Nat.cast_ofNat,
        Nat.cast_ofNat, mul_inv_cancel_right₀ hpos]
    rw [← hvalue] at h
    exact (mul_eq hm hbits h).trans rfl
  · -- A quotient by a power of ten.
    obtain ⟨k, hk⟩ := Int.eq_ofNat_of_zero_le (by omega : 0 ≤ -exponent)
    obtain rfl : exponent = -k := by omega
    have hvalue : (digits : ℚ) * 2 ^ (0 : ℤ) / ((10 ^ (- -(k : ℤ)).toNat : ℕ) * 2 ^ (0 : ℤ))
        = digits * 10 ^ (-(k : ℤ)) := by
      rw [neg_neg, Int.toNat_natCast, zpow_neg, zpow_natCast, zpow_zero, mul_one, mul_one,
        div_eq_mul_inv]
      push_cast
      rfl
    rw [← hvalue] at h
    exact (div_eq hm h).trans rfl

/-! ### Naturals and powers of ten as floats -/

/-- Zeros behind a natural number of at most 53 bits fill the mantissa up, and nothing is rounded
off. -/
theorem exists_canonical_natCast {n : ℕ} (hpos : 0 < n) (hlt : n < 2 ^ 53) :
    ∃ k : ℕ, n.log2 + k = 52 ∧ 2 ^ 52 ≤ n <<< k ∧ Canonical (n <<< k) (-k) ∧
      ((n <<< k : ℕ) : ℚ) * 2 ^ (-(k : ℤ)) = n := by
  -- The integer is shifted until it has 53 bits, by as many places as it lacks.
  have hlog : n.log2 < 53 := (Nat.log2_lt hpos.ne').2 hlt
  obtain ⟨k, hk⟩ : ∃ k, n.log2 + k = 52 := ⟨52 - n.log2, by omega⟩
  have hlow : 2 ^ 52 ≤ n <<< k := by
    rw [Nat.shiftLeft_eq, ← hk, pow_add]
    exact Nat.mul_le_mul_right _ (Nat.log2_self_le hpos.ne')
  have hhigh : n <<< k < 2 ^ 53 := by
    have hsum : 53 = n.log2 + 1 + k := by omega
    rw [Nat.shiftLeft_eq, hsum, pow_add]
    exact Nat.mul_lt_mul_of_pos_right Nat.lt_log2_self (by positivity)
  have hne : (2 : ℚ) ^ k ≠ 0 := by positivity
  refine ⟨k, hk, hlow, ⟨by omega, hhigh, by omega, by omega, .inl hlow⟩, ?_⟩
  rw [Nat.shiftLeft_eq, zpow_neg, zpow_natCast, Nat.cast_mul, Nat.cast_pow, Nat.cast_ofNat,
    mul_inv_cancel_right₀ hne]

/-- A natural number of at most 53 bits is a float. -/
theorem exists_unpack_toFloat {n : ℕ} (hpos : 0 < n) (hlt : n < 2 ^ 53) :
    ∃ m e, ∃ h : 0 < m, n.toUInt64.toFloat.toModel.unpack = .finite .positive m e h ∧
      2 ^ 52 ≤ m ∧ (m : ℚ) * 2 ^ e = n := by
  -- Rounding keeps the integer exactly, since it has 53 bits at most.
  obtain ⟨k, hk, hlow, hm, hvalue⟩ := exists_canonical_natCast hpos hlt
  have hround : UnpackedFloat.round Format.binary64 .positive n 0
      = .finite .positive (n <<< k) (-k) hm.pos := by
    have htarget : (0 : ℤ) - Format.binary64.targetExponent (totalExponent n 0) = k := by
      rw [targetExponent_eq]
      omega
    unfold UnpackedFloat.round decreaseExponent
    simp only [htarget, Int.toNat_natCast, zero_sub]
    exact roundWithAccuracy_eq (represents_exact _) (.inl hlow) hm (roundsTo_self _ _) _
  have hnormalize : UnpackedFloat.ofUInt64 Format.binary64 n.toUInt64
      = .finite .positive (n <<< k) (-k) hm.pos := by
    have hn : n.toUInt64.toNat = n := UInt64.toNat_ofNat_of_lt' (hlt.trans (by norm_num))
    unfold UnpackedFloat.ofUInt64 UnpackedFloat.ofNat UnpackedFloat.ofInt UnpackedFloat.normalize
    rw [hn, Int.compare_eq_gt.2 (by omega)]
    exact hround
  refine ⟨n <<< k, -k, hm.pos, ?_, hlow, hvalue⟩
  show (Float.Model.pack (UnpackedFloat.ofUInt64 Format.binary64 n.toUInt64)).unpack = _
  rw [hnormalize]
  exact unpack_pack hm .positive

/-- Whether an unpacked float is the power of ten with the given exponent. -/
def isPowerOfTen (k : ℕ) : UnpackedFloat → Bool
  | .finite .positive m e _ => m * 2 ^ e.toNat == 10 ^ k * 2 ^ (-e).toNat
  | _ => false

theorem exists_of_isPowerOfTen {k : ℕ} {f : UnpackedFloat} (h : isPowerOfTen k f = true) :
    ∃ m e, ∃ hpos : 0 < m, f = .finite .positive m e hpos ∧ (m : ℚ) * 2 ^ e = 10 ^ k := by
  unfold isPowerOfTen at h
  split at h
  · rename_i m e hpos
    refine ⟨m, e, hpos, rfl, ?_⟩
    have hvalue : (m : ℚ) * 2 ^ e.toNat = 10 ^ k * 2 ^ (-e).toNat := by
      exact_mod_cast beq_iff_eq.1 h
    rw [zpow_eq_div, ← mul_div_assoc, hvalue, mul_div_assoc,
      div_self (by positivity), mul_one]
  · cases h

theorem isPowerOfTen_exactlyRepresentablePowersOfTen :
    ∀ k : Fin Float.exactlyRepresentablePowersOfTen.size,
      isPowerOfTen k Float.exactlyRepresentablePowersOfTen[k].toModel.unpack = true := by
  decide +kernel

/-- The powers of ten that are kept ready are what they should be. -/
theorem exists_unpack_power {k : ℕ} (h : k < Float.exactlyRepresentablePowersOfTen.size) :
    ∃ m e, ∃ hpos : 0 < m,
      Float.exactlyRepresentablePowersOfTen[k].toModel.unpack = .finite .positive m e hpos ∧
        (m : ℚ) * 2 ^ e = 10 ^ k :=
  exists_of_isPowerOfTen (isPowerOfTen_exactlyRepresentablePowersOfTen ⟨k, h⟩)

section ShortWay

variable {digits k : ℕ} {m : ℕ} {e : ℤ}

/-- A decimal of few digits with a small negative exponent is a quotient of two floats. -/
theorem toFloat_div_power_eq (hpos : 0 < digits) (hlt : digits < 2 ^ 53)
    (hk : k < Float.exactlyRepresentablePowersOfTen.size) (hm : Canonical m e)
    (h : RoundsTo (Digits.value ⟨digits, -k⟩) m e) :
    digits.toUInt64.toFloat / Float.exactlyRepresentablePowersOfTen[k]
      = .ofModel (.pack (.finite .positive m e hm.pos)) := by
  -- Both operands are exact, so that the quotient is rounded once, from the number itself.
  obtain ⟨m₁, e₁, h₁, hunpack₁, -, hvalue₁⟩ := exists_unpack_toFloat hpos hlt
  obtain ⟨m₂, e₂, h₂, hunpack₂, hvalue₂⟩ := exists_unpack_power hk
  have hvalue : Digits.value ⟨digits, -k⟩ = m₁ * 2 ^ e₁ / (m₂ * 2 ^ e₂) := by
    rw [hvalue₁, hvalue₂, Digits.value, zpow_neg, zpow_natCast, div_eq_mul_inv]
  rw [hvalue] at h
  show Float.ofModel (.pack (UnpackedFloat.div Format.binary64
    digits.toUInt64.toFloat.toModel.unpack
    Float.exactlyRepresentablePowersOfTen[k].toModel.unpack)) = _
  rw [hunpack₁, hunpack₂, div_eq hm h]
  rfl

/-- A decimal of few digits with a small exponent is a product of two floats. -/
theorem toFloat_mul_power_eq (hpos : 0 < digits) (hlt : digits < 2 ^ 53)
    (hk : k < Float.exactlyRepresentablePowersOfTen.size) (hm : Canonical m e)
    (h : RoundsTo (Digits.value ⟨digits, k⟩) m e) :
    digits.toUInt64.toFloat * Float.exactlyRepresentablePowersOfTen[k]
      = .ofModel (.pack (.finite .positive m e hm.pos)) := by
  -- Both factors are exact, so that the product is rounded once, from the number itself.
  obtain ⟨m₁, e₁, h₁, hunpack₁, hbits, hvalue₁⟩ := exists_unpack_toFloat hpos hlt
  obtain ⟨m₂, e₂, h₂, hunpack₂, hvalue₂⟩ := exists_unpack_power hk
  have hvalue : Digits.value ⟨digits, k⟩ = m₁ * 2 ^ e₁ * (m₂ * 2 ^ e₂) := by
    rw [hvalue₁, hvalue₂, Digits.value, zpow_natCast]
  rw [hvalue] at h
  show Float.ofModel (.pack (UnpackedFloat.mul Format.binary64
    digits.toUInt64.toFloat.toModel.unpack
    Float.exactlyRepresentablePowersOfTen[k].toModel.unpack)) = _
  rw [hunpack₁, hunpack₂, mul_eq hm (hbits.trans (Nat.le_mul_of_pos_right m₁ h₂)) h]
  rfl

end ShortWay

/-- **Reading a decimal that rounds to a float,** by either of two ways: a short decimal is a
product or quotient of two floats. -/
theorem floatOfScientific_eq {digits : ℕ} (hdigits : 0 < digits) {exponent : ℤ} {m : ℕ} {e : ℤ}
    (hm : Canonical m e) (h : RoundsTo (Digits.value ⟨digits, exponent⟩) m e) :
    Float.ofScientific digits (exponent < 0) exponent.natAbs
      = .ofModel (.pack (.finite .positive m e hm.pos)) := by
  -- The exponent is passed as a sign and a size.
  have hexponent : (if decide (exponent < 0) then Int.negOfNat exponent.natAbs
      else Int.ofNat exponent.natAbs) = exponent := by
    rw [Int.negOfNat_eq, Int.ofNat_eq_natCast]
    simp only [decide_eq_true_eq]
    omega
  unfold Float.ofScientific
  split
  · rename_i hfast
    have hk : exponent.natAbs < Float.exactlyRepresentablePowersOfTen.size := by
      simp [Float.exactlyRepresentablePowersOfTen]
      omega
    dsimp only
    split at hexponent
    · rw [if_pos ‹_›]
      rw [← hexponent, Int.negOfNat_eq, Int.ofNat_eq_natCast] at h
      exact toFloat_div_power_eq hdigits hfast.1 hk hm h
    · rw [if_neg ‹_›]
      rw [← hexponent, Int.ofNat_eq_natCast] at h
      exact toFloat_mul_power_eq hdigits hfast.1 hk hm h
  · simp only [hexponent]
    show Float.ofModel (.pack (UnpackedFloat.ofScientific Format.binary64 digits exponent)) = _
    rw [ofScientific_eq hdigits hm h]

/-- **The float nearest to a decimal,** where the decimal rounds to a float other than zero. -/
theorem nearest_eq {digits : ℕ} (hdigits : 0 < digits) {exponent : ℤ} {m : ℕ} {e : ℤ}
    (hm : Canonical m e) (h : RoundsTo (Digits.value ⟨digits, exponent⟩) m e) :
    nearest digits exponent = .ofModel (.pack (.finite .positive m e hm.pos)) := by
  obtain ⟨hgreat, hsmall⟩ := exponent_range hdigits hm h
  unfold nearest
  rw [if_neg hdigits.ne', if_neg (by omega), if_neg (by omega)]
  exact floatOfScientific_eq hdigits hm h

end Scoresheet.Decimal
