import Scoresheet.Proofs.Decimal.Packing
import Scoresheet.Proofs.Decimal.Scientific

/-!
# Integers as floats

Every integer within the range of the floats rounds to one, so that the float an integer stands for
is finite.

* `exists_roundsTo` — the float that a positive integer rounds to.
* `isFinite_ofInt` — an integer stands for a finite float.
-/

namespace Scoresheet.Decimal

open Float.Model
open Float.Model.UnpackedFloat

/-! ### The float nearest to an integer -/

section Neighbours

variable {t : ℚ} {q : ℕ} {e : ℤ}

/-- Up to the midpoint a number rounds to its integral part. -/
theorem roundsTo_floor (hfloor : q ≤ t) (h : t < q + 1 / 2 ∨ q % 2 = 0 ∧ t = q + 1 / 2) :
    RoundsTo (t * 2 ^ e) q e := by
  have hpos : (0 : ℚ) < 2 ^ e := by positivity
  have hgap := gapBelow_pos q e
  refine ⟨.inl (mul_lt_mul_of_pos_right (by linarith) hpos), ?_⟩
  obtain hlt | ⟨heven, rfl⟩ := h
  · exact .inl (mul_lt_mul_of_pos_right hlt hpos)
  · exact .inr ⟨heven, rfl⟩

/-- From the midpoint on a number rounds to the next integer. -/
theorem roundsTo_succ (hlow : 2 ^ 52 ≤ q) (hceil : t < q + 1)
    (h : q + 1 / 2 < t ∨ (q + 1) % 2 = 0 ∧ t = q + 1 / 2) : RoundsTo (t * 2 ^ e) (q + 1) e := by
  -- The next integer is at most half a step off, and a tie is left to the even one.
  have hpos : (0 : ℚ) < 2 ^ e := by positivity
  have hhalf : gapBelow (q + 1) e = 1 / 2 := if_neg (by omega)
  refine ⟨?_, .inl ?_⟩
  · rw [hhalf]
    push_cast
    obtain hlt | ⟨heven, rfl⟩ := h
    · exact .inl (mul_lt_mul_of_pos_right (by linarith) hpos)
    · exact .inr ⟨heven, by ring⟩
  · push_cast
    exact mul_lt_mul_of_pos_right (by linarith) hpos

/-- Where the next integer has a bit more, it is the least mantissa of the next exponent. -/
theorem roundsTo_carry (hleast : -1074 ≤ e) (hhigh : t < 2 ^ 53) (h : 2 ^ 53 - 1 / 2 ≤ t) :
    RoundsTo (t * 2 ^ e) (2 ^ 52) (e + 1) := by
  have hpos : (0 : ℚ) < 2 ^ e := by positivity
  have hquarter : gapBelow (2 ^ 52) (e + 1) = 1 / 4 := if_pos ⟨rfl, by omega⟩
  have hdouble : (2 : ℚ) ^ (e + 1) = 2 * 2 ^ e := by
    rw [zpow_add_one₀ two_ne_zero, mul_comm]
  -- The lower bound is a quarter of the new unit off, which is half of the old one.
  refine ⟨?_, .inl ?_⟩
  · have hend : ((2 ^ 52 : ℕ) - 1 / 4 : ℚ) * (2 * 2 ^ e) = (2 ^ 53 - 1 / 2) * 2 ^ e := by
      push_cast
      ring
    rw [hquarter, hdouble, hend]
    -- Above the midpoint or on it, and then the even mantissa is taken.
    obtain hlt | heq := h.lt_or_eq
    · exact .inl (mul_lt_mul_of_pos_right hlt hpos)
    · exact .inr ⟨by norm_num, by rw [heq]⟩
  · rw [hdouble, ← mul_assoc]
    refine mul_lt_mul_of_pos_right ?_ hpos
    push_cast
    linarith

/-- A number with an integral part of 53 bits rounds to that part or to the next integer. -/
theorem exists_roundsTo_of_floor (hlow : 2 ^ 52 ≤ q) (hhigh : q < 2 ^ 53) (hfloor : q ≤ t)
    (hceil : t < q + 1) (hleast : -1074 ≤ e) (hgreatest : e ≤ 970) :
    ∃ m e', Canonical m e' ∧ RoundsTo (t * 2 ^ e) m e' := by
  by_cases hdown : t < q + 1 / 2 ∨ q % 2 = 0 ∧ t = q + 1 / 2
  · exact ⟨q, e, ⟨by omega, hhigh, hleast, by omega, .inl hlow⟩, roundsTo_floor hfloor hdown⟩
  -- At the midpoint itself the integral part is odd, so that the next integer is even.
  rw [not_or, not_lt, not_and] at hdown
  obtain ⟨hmidpoint, htie⟩ := hdown
  by_cases hcarry : q + 1 < 2 ^ 53
  · have hup : q + 1 / 2 < t ∨ (q + 1) % 2 = 0 ∧ t = q + 1 / 2 := by
      refine hmidpoint.lt_or_eq.imp_right fun heq => ⟨?_, heq.symm⟩
      have hodd : q % 2 ≠ 0 := fun heven => htie heven heq.symm
      rw [Nat.add_mod, Nat.mod_two_ne_zero.1 hodd]
    exact ⟨q + 1, e, ⟨by omega, hcarry, hleast, by omega, .inl (by omega)⟩,
      roundsTo_succ hlow hceil hup⟩
  · have hq : (q : ℚ) + 1 = 2 ^ 53 := by exact_mod_cast (by omega : q + 1 = 2 ^ 53)
    exact ⟨2 ^ 52, e + 1, ⟨by omega, by omega, by omega, by omega, .inl le_rfl⟩,
      roundsTo_carry hleast (by linarith) (by linarith)⟩

end Neighbours

/-- **Every positive integer below the greatest floats** rounds to a float. -/
theorem exists_roundsTo {n : ℕ} (hpos : 0 < n) (hlog : n.log2 ≤ 1022) :
    ∃ m e, Canonical m e ∧ RoundsTo n m e := by
  -- The unit in which the integral part has 53 bits.
  set e : ℤ := n.log2 - 52 with he
  have hunit : (0 : ℚ) < 2 ^ e := by positivity
  have hscaled : (n : ℚ) / 2 ^ e * 2 ^ e = n := div_mul_cancel₀ _ hunit.ne'
  have hlow : (2 : ℚ) ^ 52 ≤ n / 2 ^ e := by
    rw [le_div_iff₀ hunit, ← zpow_ofNat, ← zpow_add₀ two_ne_zero, he, add_sub_cancel, zpow_natCast]
    exact_mod_cast Nat.log2_self_le hpos.ne'
  have hhigh : (n : ℚ) / 2 ^ e < 2 ^ 53 := by
    have hexponent : (53 : ℤ) + e = (n.log2 + 1 : ℕ) := by omega
    rw [div_lt_iff₀ hunit, ← zpow_ofNat, ← zpow_add₀ two_ne_zero, hexponent, zpow_natCast]
    exact_mod_cast Nat.lt_log2_self
  rw [← hscaled]
  have hnonneg : (0 : ℚ) ≤ n / 2 ^ e := by positivity
  refine exists_roundsTo_of_floor (q := ⌊(n : ℚ) / 2 ^ e⌋₊) ?_ ?_ (Nat.floor_le hnonneg)
    (Nat.lt_floor_add_one _) (by omega) (by omega)
  · exact Nat.le_floor (by exact_mod_cast hlow)
  · exact (Nat.floor_lt hnonneg).2 (by exact_mod_cast hhigh)

/-! ### Finite floats -/

/-- A float and its negative are both finite or neither is. -/
theorem isFinite_neg {x : Float} (h : x.isFinite = true) : (-x).isFinite = true := by
  show (Float.Model.pack x.toModel.unpack.neg).unpack.isFinite = true
  obtain ⟨sign, hx⟩ | ⟨sign, m, e, hm, hx⟩ := unpack_of_isFinite h
  · rw [hx]
    cases sign <;> decide +kernel
  · rw [hx]
    exact isFinite_ofModel_pack (Magnitude.ofFloat_of_finite hx).1 (-sign)

/-- A natural number below the greatest floats stands for a finite one. -/
theorem isFinite_ofNat {n : ℕ} (h : n.log2 ≤ 1022) : (Float.ofNat n).isFinite = true := by
  obtain rfl | hpos := n.eq_zero_or_pos
  · decide +kernel
  · obtain ⟨m, e, hm, hrounds⟩ := exists_roundsTo hpos h
    have hvalue : Digits.value ⟨n, 0⟩ = n := by simp [Digits.value]
    rw [← hvalue] at hrounds
    show (Float.ofScientific n (decide ((0 : ℤ) < 0)) (Int.natAbs 0)).isFinite = true
    rw [floatOfScientific_eq hpos hm hrounds]
    exact isFinite_ofModel_pack hm .positive

/-- **An integer below the greatest floats** stands for a finite one. -/
theorem isFinite_ofInt {n : ℤ} (h : n.natAbs.log2 ≤ 1022) : (Float.ofInt n).isFinite = true := by
  cases n with
  | ofNat n => exact isFinite_ofNat h
  | negSucc n => exact isFinite_neg (isFinite_ofNat h)

end Scoresheet.Decimal
