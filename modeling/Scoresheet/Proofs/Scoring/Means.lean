import Scoresheet.Proofs.Decimal.Arithmetic
import Scoresheet.Scoring.Aggregation

/-!
# Means that stay in range

A mean divides every value by their number and adds the quotients, so that large values do not add
up to more than the greatest of them. But every quotient is rounded, and so is every sum, and where
the values are the greatest floats the mean may be past them. Each value accounts for two roundings,
of half a step each: values that keep as many steps away from the end of the range as there are
values have a finite mean.

* `LeavesRoom` — a float that keeps some steps away from the end of the range.
* `leavesRoom_of_exponent_lt` — the floats in the lower half of the range leave much room.
* `isFinite_foldl_add` — a sum that is rounded after each step and stays in range.
* `isFinite_mean` — a mean that stays in range.
-/

namespace Scoresheet

open Decimal

/-- **A float leaves room** for some steps of the greatest floats up to the greatest one. -/
structure LeavesRoom (steps : ℕ) (x : Float) : Prop where
  finite : x.isFinite = true
  room : |value x| + steps * greatestStep ≤ greatest

/-- More steps leave less room. -/
theorem LeavesRoom.mono {m n : ℕ} (h : m ≤ n) {x : Float} (hx : LeavesRoom n x) :
    LeavesRoom m x := by
  refine ⟨hx.finite, le_trans ?_ hx.room⟩
  have hcast : (m : ℚ) ≤ n := by exact_mod_cast h
  have hsteps := mul_le_mul_of_nonneg_right hcast greatestStep_pos.le
  linarith

/-- There is no room for more steps than mantissas have bits for. -/
theorem LeavesRoom.lt {n : ℕ} {x : Float} (h : LeavesRoom n x) : n < 2 ^ 53 := by
  have hroom : (n : ℚ) * greatestStep ≤ (2 ^ 53 - 1) * greatestStep :=
    (le_add_of_nonneg_left (abs_nonneg _)).trans h.room
  have hle := le_of_mul_le_mul_right hroom greatestStep_pos
  have hlt : (n : ℚ) < 2 ^ 53 := by linarith
  exact_mod_cast hlt

/-- **A float in the lower half** of the range leaves room for half as many steps. -/
theorem leavesRoom_of_exponent_lt {n : ℕ} {x : Float} {sign : Float.Model.UnpackedFloat.Sign}
    {m : ℕ} {e : ℤ} {hm : 0 < m} (hx : x.toModel.unpack = .finite sign m e hm) (he : e < 971)
    (hn : n < 2 ^ 52) : LeavesRoom n x := by
  refine ⟨?_, ?_⟩
  · show x.toModel.unpack.isFinite = true
    rw [hx]
    rfl
  -- The exponent is one short of the greatest, so that the float is about half of it.
  · have hmantissa : (m : ℚ) + 1 ≤ 2 ^ 53 := by
      exact_mod_cast (Magnitude.ofFloat_of_finite hx).1.lt
    have hunit : (2 : ℚ) ^ e * 2 ≤ greatestStep := by
      rw [← zpow_add_one₀ two_ne_zero]
      exact zpow_le_zpow_right₀ one_le_two (by omega)
    have hsteps : (n : ℚ) + 1 ≤ 2 ^ 52 := by exact_mod_cast hn
    rw [value_of_finite hx, abs_signFactor_mul, abs_of_nonneg (by positivity), greatest]
    calc (m : ℚ) * 2 ^ e + n * greatestStep
        ≤ m * (greatestStep / 2) + n * greatestStep := by gcongr; linarith
      _ = (m / 2 + n) * greatestStep := by ring
      _ ≤ (2 ^ 53 - 1) * greatestStep :=
          mul_le_mul_of_nonneg_right (by linarith) greatestStep_pos.le

/-- **A sum stays in range** if there is room for its terms and for rounding after each of them. -/
theorem isFinite_foldl_add {terms : List Float} {bound : ℚ}
    (h : ∀ q ∈ terms, q.isFinite = true ∧ |value q| ≤ bound) {s : Float} (hs : s.isFinite = true)
    (hroom : |value s| + terms.length * (bound + greatestStep / 2) ≤ greatest) :
    (terms.foldl (· + ·) s).isFinite = true := by
  -- By induction on the terms: each takes its bound and half a step of the room that is left.
  induction terms generalizing s with
  | nil => exact hs
  | cons q rest ih =>
    obtain ⟨⟨hq, hbound⟩, hrest⟩ := List.forall_mem_cons.1 h
    have hstep := greatestStep_pos
    -- The room for one more term is not negative.
    have hterm : 0 ≤ bound + greatestStep / 2 := by
      have := abs_nonneg (value q)
      linarith
    have hlength : (0 : ℚ) ≤ rest.length * (bound + greatestStep / 2) :=
      mul_nonneg (Nat.cast_nonneg _) hterm
    rw [List.length_cons, Nat.cast_add_one, add_one_mul] at hroom
    have htriangle := abs_add_le (value s) (value q)
    have hnear : Near (s + q) (value s + value q) := near_add hs hq (by linarith)
    have hsum := hnear.abs_le
    exact ih hrest hnear.finite (by linarith)

/-- **A mean stays in range** if every value leaves room for as many steps as there are values. -/
theorem isFinite_mean {values : List Float} (h : ∀ x ∈ values, LeavesRoom values.length x) :
    (mean values).isFinite = true := by
  obtain rfl | hne := eq_or_ne values []
  · decide +kernel
  · have hpos := List.length_pos_of_ne_nil hne
    generalize hn : values.length = n at h hpos
    have hn' : (0 : ℚ) < n := by exact_mod_cast hpos
    -- Each quotient is the exact one and half a step.
    have hquotients : ∀ q ∈ values.map (· / Float.ofNat n), q.isFinite = true ∧
        |value q| ≤ (greatest - n * greatestStep) / n + greatestStep / 2 := by
      refine List.forall_mem_map.2 fun x hx => ?_
      have hroom := (h x hx).room
      have hnear := near_div_ofNat (h x hx).finite hpos (h x hx).lt
      have hle : |value x / n| ≤ (greatest - n * greatestStep) / n := by
        rw [abs_div, abs_of_pos hn']
        exact div_le_div_of_nonneg_right (by linarith) hn'.le
      exact ⟨hnear.finite, hnear.abs_le.trans (by linarith)⟩
    have hzero : value (-0.0) = 0 := value_of_zero rfl
    have htotal : |value (-0.0)| + (values.map (· / Float.ofNat n)).length
        * ((greatest - n * greatestStep) / n + greatestStep / 2 + greatestStep / 2)
          = greatest := by
      rw [hzero, abs_zero, zero_add, List.length_map, hn, add_assoc, add_halves, mul_add,
        mul_div_cancel₀ _ hn'.ne', sub_add_cancel]
    unfold mean sum
    rw [hn]
    exact isFinite_foldl_add hquotients (by decide +kernel) htotal.le

end Scoresheet
