import Scoresheet.Proofs.Decimal.Arithmetic

/-!
# Differences of floats

The difference of two floats is an integral number of units in the last place of either. Floats go
down to the least of these units, so that a difference that is not zero is never rounded to zero. It
may leave the range, but then it is infinite.

* `exists_roundWithAccuracy_eq`, `exists_round_eq` — rounding never gives zero for a mantissa whose
  last place floats have.
* `IsNonzero` — a float that is not zero, nor undefined.
* `zero_lt_abs_iff` — its magnitude is more than zero, and no other is.
* `zero_lt_abs_sub_iff` — two finite floats differ exactly if they stand for different numbers.
* `neg_normalize`, `sub_eq_neg_sub` — a difference the other way round has the other sign.
* `lt_abs_sub_comm` — its magnitude is past the same thresholds.
-/

namespace Scoresheet.Decimal

open Float.Model
open Float.Model.UnpackedFloat

/-! ### Rounding away from zero -/

/-- A rounded mantissa that is not zero is brought to its final place, which may be past those of
floats. -/
theorem exists_shiftToTargetExponent_pos {r : ℕ} {target : ℤ} (hpos : 0 < r) (hr : r ≤ 2 ^ 53)
    (hleast : -1074 ≤ target) (hlow : 2 ^ 52 ≤ r ∨ target = -1074) :
    ∃ m e, shiftToTargetExponent Format.binary64 r target .exact = (⟨m, false, false⟩, e) ∧
      0 < m ∧ (Canonical m e ∨ 971 < e) := by
  -- The mantissa fits as it is, or it has been carried into the next power of two.
  obtain hlt | rfl := hr.lt_or_eq
  · refine ⟨r, target, shiftToTargetExponent_self hpos hlt hleast hlow, hpos, ?_⟩
    -- The exponent is in range or past it, and there is no third case.
    obtain hgreatest | hpast := le_or_gt target 971
    · exact .inl ⟨hpos, hlt, hleast, hgreatest, hlow⟩
    · exact .inr hpast
  · have hshift := shiftToTargetExponent_carry (by omega : -1074 < target + 1)
    rw [add_sub_cancel_right] at hshift
    refine ⟨2 ^ 52, target + 1, hshift, by norm_num, ?_⟩
    obtain hgreatest | hpast := le_or_gt (target + 1) 971
    · exact .inl ⟨by norm_num, by norm_num, by omega, hgreatest, .inl le_rfl⟩
    · exact .inr hpast

/-- **Rounding never gives zero** for a mantissa whose last place floats have. -/
theorem exists_roundWithAccuracy_eq {n : ℕ} {i : ℤ} (hpos : 0 < n) (hleast : -1074 ≤ i)
    (hbits : 2 ^ 52 ≤ n ∨ i ≤ -1074) (sign : Sign) :
    ∃ m e h, roundWithAccuracy Format.binary64 sign n i .exact = .finite sign m e h ∧
      (Canonical m e ∨ 971 < e) := by
  obtain ⟨em, hshift, hem⟩ := shiftToTargetExponent_eq (represents_exact n) hbits
  have hself : (n : ℚ) ≤ n ∧ (n : ℚ) < n + 1 := ⟨le_rfl, lt_add_one _⟩
  set target : ℤ := max ((n.log2 : ℤ) + i - 52) (-1074) with htarget
  obtain ⟨hhigh, hlow⟩ := target_bounds hself hbits htarget
  set u : ℚ := n * 2 ^ i / 2 ^ target with hu
  -- In units of the place that is kept, the number is one at least.
  have hone : 1 ≤ u := by
    obtain hlow | hleast' := hlow
    · exact le_trans (by norm_num) hlow
    · rw [hu, hleast', one_le_div (by positivity)]
      have hn : (1 : ℚ) ≤ n := by exact_mod_cast hpos
      calc (2 : ℚ) ^ (-1074 : ℤ) ≤ 2 ^ i := zpow_le_zpow_right₀ one_le_two hleast
        _ ≤ n * 2 ^ i := le_mul_of_one_le_left (by positivity) hn
  have hr : 0 < em.roundedMantissa := hem.le_roundedMantissa (by exact_mod_cast hone)
  have hhigh' : em.roundedMantissa ≤ 2 ^ 53 := hem.roundedMantissa_le (by exact_mod_cast hhigh.le)
  have hlow' : 2 ^ 52 ≤ em.roundedMantissa ∨ target = -1074 :=
    hlow.imp_left fun hlow => hem.le_roundedMantissa (by exact_mod_cast hlow)
  have htarget' : -1074 ≤ target := le_max_right _ _
  obtain ⟨m, e, hfinal, hm, hrange⟩ :=
    exists_shiftToTargetExponent_pos hr hhigh' htarget' hlow'
  refine ⟨m, e, hm, ?_, hrange⟩
  unfold roundWithAccuracy
  simp only [hshift, hfinal]
  exact dif_neg hm.ne'

/-- The same of a mantissa that may be short of bits. -/
theorem exists_round_eq {m : ℕ} {e : ℤ} (hpos : 0 < m) (hleast : -1074 ≤ e) (sign : Sign) :
    ∃ m' e' h, UnpackedFloat.round Format.binary64 sign m e = .finite sign m' e' h ∧
      (Canonical m' e' ∨ 971 < e') := by
  obtain ⟨k, hdecrease, hbits, hleast'⟩ := exists_decreaseExponent hpos e
  unfold UnpackedFloat.round
  simp only [hdecrease]
  refine exists_roundWithAccuracy_eq ?_ (hleast' hleast) hbits sign
  rw [Nat.shiftLeft_eq]
  positivity

/-! ### Floats other than zero -/

/-- **A float that is not zero,** nor undefined. -/
def IsNonzero (x : Float) : Prop :=
  (∃ sign, x.toModel.unpack = .infinity sign) ∨
    ∃ sign m e h, x.toModel.unpack = .finite sign m e h

/-- What is past the greatest floats is packed as an infinity. -/
theorem pack_past {sign : Sign} {m : ℕ} {e : ℤ} (h : 0 < m) (hpast : 971 < e) :
    Float.Model.pack (.finite sign m e h) = .pack (.infinity sign) := by
  have hpast' : 2 ^ Format.binary64.exponentBits
      ≤ (e + Format.binary64.exponentBias
          + Format.binary64.mantissaBitsWithoutImplicit).toNat + 1 := by
    show 2 ^ 11 ≤ (e + (1023 : ℕ) + (52 : ℕ)).toNat + 1
    omega
  unfold Float.Model.pack
  congr 2
  exact if_pos hpast'

theorem unpack_pack_past {sign : Sign} {m : ℕ} {e : ℤ} (h : 0 < m) (hpast : 971 < e) :
    (Float.Model.pack (.finite sign m e h)).unpack = .infinity sign := by
  rw [pack_past h hpast]
  cases sign <;> rfl

/-- What rounding makes of such a mantissa is a float other than zero. -/
theorem isNonzero_round {m : ℕ} {e : ℤ} (hpos : 0 < m) (hleast : -1074 ≤ e) (sign : Sign) :
    IsNonzero (.ofModel (.pack (UnpackedFloat.round Format.binary64 sign m e))) := by
  obtain ⟨m', e', h, hround, hcanonical | hpast⟩ := exists_round_eq hpos hleast sign
  · rw [hround]
    exact .inr ⟨sign, m', e', h, unpack_pack hcanonical sign⟩
  · rw [hround]
    exact .inl ⟨sign, unpack_pack_past h hpast⟩

/-- To be more than zero is told by the unpacked float. -/
theorem zero_lt_iff {x : Float} :
    (0.0 : Float) < x ↔ UnpackedFloat.lt (.zero .positive) x.toModel.unpack = true := by
  show decide ((0.0 : Float).toModel < x.toModel) = true ↔ _
  exact decide_eq_true_iff

/-- **The magnitude of a float** is more than zero exactly if the float is not zero. -/
theorem zero_lt_abs_iff {x : Float} : (0.0 : Float) < x.abs ↔ IsNonzero x := by
  rw [zero_lt_iff]
  have habs : x.abs.toModel.unpack = (Float.Model.pack x.toModel.unpack.abs).unpack := rfl
  rw [habs, IsNonzero]
  -- By the shape of the float. No number is not above zero, and neither is a zero.
  cases hx : x.toModel.unpack with
  | notANumber =>
    refine iff_of_false (by decide +kernel) ?_
    rintro (⟨_, heq⟩ | ⟨_, _, _, _, heq⟩) <;> cases heq
  | infinity sign => exact iff_of_true (by cases sign <;> decide +kernel) (.inl ⟨sign, rfl⟩)
  | zero sign =>
    refine iff_of_false (by cases sign <;> decide +kernel) ?_
    rintro (⟨_, heq⟩ | ⟨_, _, _, _, heq⟩) <;> cases heq
  -- The size of a finite float is one with the same mantissa.
  | finite sign m e h =>
    have hcanonical := (Magnitude.ofFloat_of_finite hx).1
    rw [UnpackedFloat.abs, unpack_pack hcanonical]
    exact iff_of_true rfl (.inr ⟨sign, m, e, h, rfl⟩)

/-! ### Differences -/

theorem value_ne_zero {x : Float} {sign : Sign} {m : ℕ} {e : ℤ} {h : 0 < m}
    (hx : x.toModel.unpack = .finite sign m e h) : value x ≠ 0 := by
  rw [value_of_finite hx]
  have hm : (m : ℚ) ≠ 0 := by exact_mod_cast h.ne'
  have hsign : signFactor sign ≠ 0 := by cases sign <;> norm_num [signFactor]
  exact mul_ne_zero hsign (mul_ne_zero hm (by positivity))

theorem not_isNonzero_zero (sign : Sign) : ¬ IsNonzero (.ofModel (.pack (.zero sign))) := by
  have hunpack : (Float.Model.pack (.zero sign)).unpack = .zero sign := by cases sign <;> rfl
  rintro (⟨_, heq⟩ | ⟨_, _, _, _, heq⟩) <;> cases hunpack.symm.trans heq

/-- An integral mantissa with a sign of its own is rounded to zero only if it is zero. -/
theorem isNonzero_normalize_iff {k e : ℤ} (hleast : -1074 ≤ e) :
    IsNonzero (.ofModel (.pack (UnpackedFloat.normalize Format.binary64 k e .positive))) ↔
      k ≠ 0 := by
  unfold UnpackedFloat.normalize
  -- The sign of the mantissa is that of the difference, and only a zero mantissa gives zero.
  obtain hneg | rfl | hpos := lt_trichotomy k 0
  · rw [Int.compare_eq_lt.2 hneg]
    exact iff_of_true (isNonzero_round (by omega) hleast .negative) hneg.ne
  · rw [Int.compare_eq_eq.2 rfl]
    exact iff_of_false (not_isNonzero_zero .positive) (not_not.2 rfl)
  · rw [Int.compare_eq_gt.2 hpos]
    exact iff_of_true (isNonzero_round (by omega) hleast .positive) hpos.ne'

theorem sub_eq_pack (x y : Float) : x - y = .ofModel (.pack (UnpackedFloat.sub Format.binary64
    x.toModel.unpack y.toModel.unpack)) := rfl

/-- **Two floats differ by nothing** only if they stand for one number. However little their
difference is, it is not rounded to zero. -/
theorem zero_lt_abs_sub_iff {x y : Float} (hx : x.isFinite = true) (hy : y.isFinite = true) :
    (0.0 : Float) < (x - y).abs ↔ value x ≠ value y := by
  rw [zero_lt_abs_iff, sub_eq_pack]
  -- By whether either side is a zero.
  obtain ⟨sx, hx'⟩ | ⟨sx, mx, ex, hmx, hx'⟩ := unpack_of_isFinite hx
  · obtain ⟨sy, hy'⟩ | ⟨sy, my, ey, hmy, hy'⟩ := unpack_of_isFinite hy
    · rw [value_of_zero hx', value_of_zero hy', hx', hy']
      refine iff_of_false ?_ (not_not.2 rfl)
      cases sx <;> cases sy <;> exact not_isNonzero_zero _
    -- The difference is the other side with the opposite sign.
    · have hcanonical := (Magnitude.ofFloat_of_finite hy').1
      rw [value_of_zero hx', hx', hy']
      exact iff_of_true (.inr ⟨-sy, my, ey, hmy, unpack_pack hcanonical (-sy)⟩)
        (value_ne_zero hy').symm
  · have hcanonical := (Magnitude.ofFloat_of_finite hx').1
    obtain ⟨sy, hy'⟩ | ⟨sy, my, ey, hmy, hy'⟩ := unpack_of_isFinite hy
    · rw [value_of_zero hy', hx', hy']
      exact iff_of_true (.inr ⟨sx, mx, ex, hmx, unpack_pack hcanonical sx⟩) (value_ne_zero hx')
    · -- Both are brought to the lesser exponent, where the difference of the mantissas is exact.
      have hunit : (2 : ℚ) ^ min ex ey ≠ 0 := by positivity
      have hleast : -1074 ≤ min ex ey :=
        le_min hcanonical.least_le (Magnitude.ofFloat_of_finite hy').1.least_le
      rw [value_of_finite hx', value_of_finite hy',
        ← apply_decreaseExponent sx mx (min_le_left ex ey),
        ← apply_decreaseExponent sy my (min_le_right ex ey), ne_eq, mul_left_inj' hunit,
        Int.cast_inj, ← sub_eq_zero, hx', hy']
      exact isNonzero_normalize_iff hleast

/-! ### Differences the other way round -/

/-- Rounding leaves the sign alone. -/
theorem neg_round (sign : Sign) (m : ℕ) (e : ℤ) :
    (UnpackedFloat.round Format.binary64 sign m e).neg
      = UnpackedFloat.round Format.binary64 (-sign) m e := by
  unfold UnpackedFloat.round roundWithAccuracy
  dsimp only
  split <;> rfl

/-- The opposite of an integral mantissa is rounded to the opposite float. -/
theorem neg_normalize {k : ℤ} (hk : k ≠ 0) (e : ℤ) (sign : Sign) :
    (UnpackedFloat.normalize Format.binary64 k e sign).neg
      = UnpackedFloat.normalize Format.binary64 (-k) e sign := by
  unfold UnpackedFloat.normalize
  obtain hneg | hpos := lt_or_gt_of_ne hk
  · rw [Int.compare_eq_lt.2 hneg, Int.compare_eq_gt.2 (neg_pos.2 hneg)]
    exact neg_round _ _ _
  · rw [Int.compare_eq_gt.2 hpos, Int.compare_eq_lt.2 (neg_neg_of_pos hpos), neg_neg]
    exact neg_round _ _ _

theorem neg_pack {sign : Sign} {m : ℕ} {e : ℤ} (h : 0 < m) (hrange : Canonical m e ∨ 971 < e) :
    -(Float.ofModel (.pack (.finite sign m e h))) = .ofModel (.pack (.finite (-sign) m e h)) := by
  show Float.ofModel (.pack (Float.Model.pack (.finite sign m e h)).unpack.neg) = _
  obtain hcanonical | hpast := hrange
  · rw [unpack_pack hcanonical]
    rfl
  · -- What is past the greatest float is packed as infinity, with its sign.
    rw [unpack_pack_past h hpast, pack_past h hpast]
    rfl

/-- The same of what is packed then. -/
theorem neg_pack_normalize {k e : ℤ} (hk : k ≠ 0) (hleast : -1074 ≤ e) :
    -(Float.ofModel (.pack (UnpackedFloat.normalize Format.binary64 k e .positive)))
      = .ofModel (.pack (UnpackedFloat.normalize Format.binary64 (-k) e .positive)) := by
  rw [← neg_normalize hk]
  -- The sign of the integer picks the branch, and the result has a mantissa in range or past it.
  have hrange : ∃ sign m' e' h, UnpackedFloat.normalize Format.binary64 k e .positive
      = .finite sign m' e' h ∧ (Canonical m' e' ∨ 971 < e') := by
    unfold UnpackedFloat.normalize
    obtain hneg | hpos := lt_or_gt_of_ne hk
    · rw [Int.compare_eq_lt.2 hneg]
      exact ⟨_, exists_round_eq (by omega) hleast .negative⟩
    · rw [Int.compare_eq_gt.2 hpos]
      exact ⟨_, exists_round_eq (by omega) hleast .positive⟩
  obtain ⟨sign, m', e', h, heq, hrange⟩ := hrange
  rw [heq]
  exact neg_pack h hrange

/-- **A difference the other way round** has the other sign, if it is not zero. -/
theorem sub_eq_neg_sub {x y : Float} (hx : x.isFinite = true) (hy : y.isFinite = true)
    (h : IsNonzero (x - y)) : y - x = -(x - y) := by
  rw [sub_eq_pack] at h
  rw [sub_eq_pack, sub_eq_pack]
  -- By whether either side is a zero, as for the difference itself.
  obtain ⟨sx, hx'⟩ | ⟨sx, mx, ex, hmx, hx'⟩ := unpack_of_isFinite hx
  · obtain ⟨sy, hy'⟩ | ⟨sy, my, ey, hmy, hy'⟩ := unpack_of_isFinite hy
    · -- The difference of two zeros is a zero, and has the same sign either way.
      rw [hx', hy'] at h
      cases sx <;> cases sy <;> exact absurd h (not_isNonzero_zero _)
    -- A sign that is turned twice is the same sign.
    · have hcanonical := (Magnitude.ofFloat_of_finite hy').1
      have hsign : - -sy = sy := by cases sy <;> rfl
      rw [hx', hy']
      exact (congrArg (fun sign => Float.ofModel (.pack (.finite sign my ey hmy))) hsign.symm).trans
        (neg_pack hmy (.inl hcanonical)).symm
  · have hcanonical := (Magnitude.ofFloat_of_finite hx').1
    obtain ⟨sy, hy'⟩ | ⟨sy, my, ey, hmy, hy'⟩ := unpack_of_isFinite hy
    · rw [hx', hy']
      exact (neg_pack hmx (.inl hcanonical)).symm
    -- At the lesser exponent the mantissas are exchanged, and their difference is negated.
    · have hleast : -1074 ≤ min ex ey :=
        le_min hcanonical.least_le (Magnitude.ofFloat_of_finite hy').1.least_le
      rw [hx', hy'] at h ⊢
      have hk := (isNonzero_normalize_iff hleast).1 h
      refine Eq.trans ?_ (neg_pack_normalize hk hleast).symm
      rw [neg_sub, min_comm]
      rfl

/-- The magnitude is that of the opposite float. -/
theorem abs_neg (x : Float) : (-x).abs = x.abs := by
  show Float.ofModel (.pack (Float.Model.pack x.toModel.unpack.neg).unpack.abs)
    = .ofModel (.pack x.toModel.unpack.abs)
  cases hx : x.toModel.unpack with
  | notANumber => rfl
  | infinity sign => cases sign <;> rfl
  | zero sign => cases sign <;> rfl
  | finite sign m e h =>
    rw [UnpackedFloat.neg, unpack_pack (Magnitude.ofFloat_of_finite hx).1]
    rfl

/-- A magnitude that is past a threshold is more than zero. -/
theorem IsNonzero.of_lt_abs {x threshold : Float} (hthreshold : (0.0 : Float) ≤ threshold)
    (h : threshold < x.abs) : IsNonzero x := by
  have hle : UnpackedFloat.le (.zero .positive) threshold.toModel.unpack = true :=
    of_decide_eq_true hthreshold
  have hlt : UnpackedFloat.lt threshold.toModel.unpack
      (Float.Model.pack x.toModel.unpack.abs).unpack = true := of_decide_eq_true h
  cases hx : x.toModel.unpack with
  | infinity sign => exact .inl ⟨sign, hx⟩
  | finite sign m e h => exact .inr ⟨sign, m, e, h, hx⟩
  | notANumber =>
    have hnone : (Float.Model.pack (UnpackedFloat.abs .notANumber)).unpack = .notANumber := rfl
    -- Nothing is below what is no number.
    rw [hx, hnone] at hlt
    cases ht : threshold.toModel.unpack <;> rw [ht] at hlt <;> cases hlt
  | zero sign =>
    have hzero : (Float.Model.pack (UnpackedFloat.abs (.zero sign))).unpack = .zero .positive := by
      cases sign <;> rfl
    -- The magnitude is zero, and only a threshold with a minus sign is below that.
    rw [hx, hzero] at hlt
    cases ht : threshold.toModel.unpack with
    | notANumber | zero => rw [ht] at hlt; cases hlt
    | infinity s | finite s =>
      rw [ht] at hlt hle
      cases s
      · cases hle
      · cases hlt

/-- **The magnitude of a difference** is past a threshold whichever way round the difference is
taken. -/
theorem lt_abs_sub_comm {x y threshold : Float} (hx : x.isFinite = true) (hy : y.isFinite = true)
    (hthreshold : (0.0 : Float) ≤ threshold) :
    threshold < (y - x).abs ↔ threshold < (x - y).abs := by
  have habs {a b : Float} (ha : a.isFinite = true) (hb : b.isFinite = true)
      (h : threshold < (a - b).abs) : threshold < (b - a).abs := by
    rw [sub_eq_neg_sub ha hb (.of_lt_abs hthreshold h), abs_neg]
    exact h
  exact ⟨habs hy hx, habs hx hy⟩

/-- No float is past a threshold from itself. -/
theorem not_lt_abs_sub_self {threshold : Float} (hthreshold : (0.0 : Float) ≤ threshold)
    (x : Float) : ¬ threshold < (x - x).abs := by
  intro h
  have hnonzero : IsNonzero (x - x) := .of_lt_abs hthreshold h
  -- The difference of a finite float with itself is a zero; of any other it is no number.
  cases hfinite : x.isFinite with
  | true => exact (zero_lt_abs_sub_iff hfinite hfinite).1 (zero_lt_abs_iff.2 hnonzero) rfl
  | false =>
    have hnone : (x - x).toModel.unpack = .notANumber := by
      rw [sub_eq_pack]
      change x.toModel.unpack.isFinite = false at hfinite
      cases hx : x.toModel.unpack with
      | notANumber => rfl
      | infinity sign => cases sign <;> rfl
      | zero | finite => rw [hx] at hfinite; cases hfinite
    obtain ⟨_, heq⟩ | ⟨_, _, _, _, heq⟩ := hnonzero <;> cases hnone.symm.trans heq

end Scoresheet.Decimal
