import Scoresheet.Decimal.Shortest
import Scoresheet.Proofs.Decimal.Scientific

/-!
# The shortest digits read back

The digits that are written of a float are looked for in the interval of the numbers that round to
it. Here the comparisons of integers that make up the search are read as comparisons of rational
numbers, and what is found is shown to be in the interval. Should nothing be found, the exact value
is written, which is in the interval too, so that reading back does not depend on how far the search
goes.

* `compareScaled_eq_lt`, `compareScaled_eq_gt`, `compareScaled_eq_eq` — the comparison of two scaled
  naturals is that of the numbers.
* `Magnitude.roundsFrom_iff` — the test for the rounding interval.
* `Magnitude.roundsTo_shortest` — the shortest decimal rounds to its float.
-/

namespace Scoresheet.Decimal

/-! ### Comparing scaled numbers -/

section Compare

variable {a n : ℕ} {i j : ℤ}

/-- The numbers that are compared are the two values on one scale. -/
private theorem exists_scale (a n : ℕ) (i j : ℤ) :
    ∃ c : ℚ, 0 < c ∧
      ((a * Nat.pow 10 i.toNat * Nat.pow 2 (-j).toNat : ℕ) : ℚ) = a * 10 ^ i * c ∧
      ((n * Nat.pow 2 j.toNat * Nat.pow 10 (-i).toNat : ℕ) : ℚ) = n * 2 ^ j * c := by
  -- A negative exponent is made up for on the other side, so that both are integers.
  refine ⟨10 ^ (-i).toNat * 2 ^ (-j).toNat, by positivity, ?_, ?_⟩
  · rw [zpow_eq_div 10 i]
    simp only [Nat.pow_eq]
    push_cast
    field_simp
  · rw [zpow_eq_div 2 j]
    simp only [Nat.pow_eq]
    push_cast
    field_simp

theorem compareScaled_eq_lt : compareScaled a i n j = .lt ↔ (a * 10 ^ i : ℚ) < n * 2 ^ j := by
  obtain ⟨c, hc, hleft, hright⟩ := exists_scale a n i j
  unfold compareScaled
  rw [Nat.compare_eq_lt, ← @Nat.cast_lt ℚ, hleft, hright, mul_lt_mul_iff_of_pos_right hc]

theorem compareScaled_eq_gt : compareScaled a i n j = .gt ↔ (n * 2 ^ j : ℚ) < a * 10 ^ i := by
  obtain ⟨c, hc, hleft, hright⟩ := exists_scale a n i j
  unfold compareScaled
  rw [Nat.compare_eq_gt, ← @Nat.cast_lt ℚ, hleft, hright, mul_lt_mul_iff_of_pos_right hc]

theorem compareScaled_eq_eq : compareScaled a i n j = .eq ↔ (a * 10 ^ i : ℚ) = n * 2 ^ j := by
  obtain ⟨c, hc, hleft, hright⟩ := exists_scale a n i j
  unfold compareScaled
  rw [Nat.compare_eq_eq, ← @Nat.cast_inj ℚ, hleft, hright, mul_left_inj' hc.ne']

end Compare

/-! ### The rounding interval -/

/-- **The test for the rounding interval** is passed by the decimals that round to the float. -/
theorem Magnitude.roundsFrom_iff {m : ℕ} {e : ℤ} (hm : 0 < m) (d : Digits) :
    Magnitude.roundsFrom ⟨m, e, decide (m = 2 ^ 52 ∧ -1074 < e)⟩ d = true ↔
      RoundsTo d.value m e := by
  have hquarter : (2 : ℚ) ^ e = 4 * 2 ^ (e - 2) := by
    rw [zpow_sub₀ two_ne_zero, zpow_ofNat]
    ring
  -- The ends of the interval, which the test measures in quarters of the last place.
  have hlow : ((if decide (m = 2 ^ 52 ∧ -1074 < e) then 4 * m - 1 else 4 * m - 2 : ℕ) : ℚ)
      * 2 ^ (e - 2) = (m - gapBelow m e) * 2 ^ e := by
    unfold gapBelow
    split
    · rename_i hnarrow
      rw [if_pos (of_decide_eq_true hnarrow), Nat.cast_sub (by omega), hquarter]
      push_cast
      ring
    · rename_i hnarrow
      rw [if_neg (fun h => hnarrow (decide_eq_true h)), Nat.cast_sub (by omega), hquarter]
      push_cast
      ring
  have hhigh : ((4 * m + 2 : ℕ) : ℚ) * 2 ^ (e - 2) = (m + 1 / 2) * 2 ^ e := by
    rw [hquarter]
    push_cast
    ring
  unfold Magnitude.roundsFrom
  simp only [Bool.and_eq_true, Bool.or_eq_true, beq_iff_eq, compareScaled_eq_gt,
    compareScaled_eq_lt, compareScaled_eq_eq, hlow, hhigh]
  exact ⟨fun h => ⟨h.1, h.2⟩, fun h => ⟨h.low, h.high⟩⟩

/-! ### The decimals that are tried -/

/-- What is taken on a grid rounds to the magnitude. -/
theorem Magnitude.roundsFrom_of_onGrid? {x : Magnitude} {tie : Tie} {grid : ℤ} {d : Digits}
    (h : x.onGrid? tie grid = some d) : x.roundsFrom d = true := by
  unfold Magnitude.onGrid? at h
  dsimp only at h
  -- Whichever of the two neighbours is taken has passed the test.
  split at h
  · cases h
  · rename_i hbelow _
    rwa [← Option.some.inj h]
  · rename_i _ habove
    rwa [← Option.some.inj h]
  · rename_i hbelow habove
    split at h
    · rwa [← Option.some.inj h]
    · rwa [← Option.some.inj h]
    · split at h
      · rwa [← Option.some.inj h]
      · rwa [← Option.some.inj h]
    · rwa [← Option.some.inj h]

theorem Magnitude.value_exact (x : Magnitude) :
    x.exact.value = x.mantissa * 2 ^ x.exponent := by
  unfold Magnitude.exact Digits.value
  -- With a negative exponent a power of five goes into the digits, and one of ten out of them.
  obtain ⟨k, hk | hk⟩ := x.exponent.eq_nat_or_neg
  · rw [hk]
    simp [Nat.pow_eq]
  · have hten : (10 : ℚ) ^ k = 2 ^ k * 5 ^ k := by
      rw [← mul_pow]
      norm_num
    have hmin : min (-(k : ℤ)) 0 = -k := by omega
    rw [hk, hmin, zpow_neg, zpow_neg, zpow_natCast, zpow_natCast, hten]
    simp only [Nat.pow_eq, Int.toNat_neg_natCast, neg_neg, Int.toNat_natCast]
    push_cast
    field_simp

theorem Digits.value_stripped (d : Digits) (fuel : ℕ) : (d.stripped fuel).value = d.value := by
  -- By induction on the fuel: a zero at the end is taken off the digits and put into the exponent.
  induction fuel generalizing d with
  | zero => rfl
  | succ fuel ih =>
    unfold Digits.stripped
    split
    · rename_i hzero
      have hdigits : (d.digits : ℚ) = 10 * (d.digits / 10 : ℕ) := by
        exact_mod_cast (by omega : d.digits = 10 * (d.digits / 10))
      rw [ih]
      unfold Digits.value
      rw [hdigits, zpow_add_one₀ (by norm_num)]
      dsimp only
      ring
    · rfl

/-- **The shortest decimal rounds to its float.** -/
theorem Magnitude.roundsTo_shortest {m : ℕ} {e : ℤ} (hm : Canonical m e) (tie : Tie) :
    RoundsTo (Magnitude.shortest ⟨m, e, decide (m = 2 ^ 52 ∧ -1074 < e)⟩ tie).value m e := by
  unfold Magnitude.shortest
  rw [if_neg hm.pos.ne']
  dsimp only
  -- Zeros moved into the exponent leave the value as it is.
  rw [Digits.value_stripped]
  generalize hfound : (List.range 17).findSome? _ = found
  cases found with
  | some d =>
    obtain ⟨n, -, hgrid⟩ := List.exists_of_findSome?_eq_some hfound
    exact (Magnitude.roundsFrom_iff hm.pos d).1 (Magnitude.roundsFrom_of_onGrid? hgrid)
  | none =>
    rw [Option.getD_none, Magnitude.value_exact]
    exact roundsTo_self m e

end Scoresheet.Decimal
