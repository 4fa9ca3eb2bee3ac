import Scoresheet.Proofs.Decimal.Rounding

/-!
# The bits of a float

The sign, the exponent and the fraction of a float stand side by side in its bit pattern. The floats
that arithmetic packs and the digits that are chosen for a float are both told by these three
fields.

* `ofModel_pack_unpack`, `unpack_pack` — packing and unpacking undo each other.
* `unpack_of_isFinite` — a finite float is zero or has a mantissa.
* `Magnitude.ofFloat_of_finite` — the magnitude of a float is that of its unpacked form.
-/

namespace Scoresheet.Decimal

open Float.Model
open Float.Model.UnpackedFloat

/-! ### Fields -/

section Fields

variable (b : BitVec Format.binary64.numBits)

theorem toNat_unpackMantissa : (unpackMantissa b).toNat = b.toNat % 2 ^ 52 := by
  simp [unpackMantissa, BitVec.extractLsb_toNat]

theorem toNat_unpackExponent : (unpackExponent b).toNat = b.toNat / 2 ^ 52 % 2 ^ 11 := by
  simp [unpackExponent, BitVec.extractLsb_toNat, Nat.shiftRight_eq_div_pow]

theorem toNat_unpackSign : (unpackSign b).toNat = b.toNat / 2 ^ 63 := by
  have hlt : b.toNat < 2 ^ 64 := b.isLt
  simp [unpackSign, BitVec.extractLsb_toNat, Nat.shiftRight_eq_div_pow]
  omega

end Fields

/-- The leading one that normal floats leave out. -/
theorem toNat_append_one (mantissa : BitVec 52) :
    (1#1 ++ mantissa).toNat = 2 ^ 52 + mantissa.toNat := by
  rw [BitVec.toNat_append, ← Nat.shiftLeft_add_eq_or_of_lt mantissa.isLt, Nat.shiftLeft_eq]
  rfl

theorem pack_normal {sign : Sign} {m k : ℕ} {h : 0 < m} (hlow : 2 ^ 52 ≤ m) (hhigh : m < 2 ^ 53)
    (hk : k < 2047) :
    UnpackedFloat.pack Format.binary64 (.finite sign m (k - 1075) h)
      = packComponents Format.binary64 sign (BitVec.ofNat 11 k) (BitVec.ofNat 52 m) := by
  -- The mantissa has all its bits, the first of which is not stored.
  have hlog : m.log2 + 1 = Format.binary64.mantissaBits := by
    have hlt : m.log2 < 53 := (Nat.log2_lt h.ne').2 hhigh
    have hge : 52 ≤ m.log2 := (Nat.le_log2 h.ne').2 hlow
    rw [mantissaBits_binary64]
    omega
  -- The field holds the exponent with the bias.
  have hbiased : ((k : ℤ) - 1075 + Format.binary64.exponentBias
      + Format.binary64.mantissaBitsWithoutImplicit).toNat = k := by
    rw [exponentBias_binary64]
    dsimp only
    omega
  unfold UnpackedFloat.pack
  simp only [hbiased]
  rw [if_neg (by omega), if_pos hlog]

theorem pack_subnormal {sign : Sign} {m : ℕ} {h : 0 < m} (hhigh : m < 2 ^ 52) :
    UnpackedFloat.pack Format.binary64 (.finite sign m (-1074) h)
      = packComponents Format.binary64 sign 0#11 (BitVec.ofNat 52 m) := by
  -- The mantissa lacks its first bit, which tells it from a normal one.
  have hlog : m.log2 + 1 ≠ Format.binary64.mantissaBits := by
    have hlt : m.log2 < 52 := (Nat.log2_lt h.ne').2 hhigh
    rw [mantissaBits_binary64]
    omega
  have hbiased : (-1074 + (Format.binary64.exponentBias : ℤ)
      + Format.binary64.mantissaBitsWithoutImplicit).toNat = 1 := by
    rw [exponentBias_binary64]
    rfl
  unfold UnpackedFloat.pack
  simp only [hbiased]
  rw [if_neg (by norm_num), if_neg hlog]

/-! ### Floats -/

/-- **A float is its unpacked form,** packed. -/
theorem ofModel_pack_unpack (x : Float) : Float.ofModel (.pack x.toModel.unpack) = x :=
  Float.ofBits_toBits x

theorem unpack_normal (sign : Sign) {m k : ℕ} (hlow : 2 ^ 52 ≤ m) (hhigh : m < 2 ^ 53)
    (hpos : 0 < k) (hk : k < 2047) (h : 0 < m) :
    UnpackedFloat.unpack Format.binary64
        (packComponents Format.binary64 sign (BitVec.ofNat 11 k) (BitVec.ofNat 52 m))
      = .finite sign m (k - 1075) h := by
  have hfield : (BitVec.ofNat 11 k).toNat = k := by
    rw [BitVec.toNat_ofNat]
    omega
  have hinfinite : BitVec.ofNat 11 k ≠ -1#11 := fun heq => by
    rw [heq] at hfield
    change 2047 = k at hfield
    omega
  have hleast : BitVec.ofNat 11 k ≠ 0#11 := fun heq => by
    rw [heq] at hfield
    change 0 = k at hfield
    omega
  have hmantissa : (1#1 ++ BitVec.ofNat 52 m).toNat = m := by
    rw [toNat_append_one, BitVec.toNat_ofNat]
    omega
  -- The exponent is neither that of the infinities nor that of the subnormal numbers.
  unfold UnpackedFloat.unpack
  simp only [unpackMantissa_packComponents, unpackExponent_packComponents,
    unpackSign_packComponents, Sign.ofBitVec_toBitVec, hinfinite, hleast, if_false, hmantissa,
    hfield]
  rfl

theorem unpack_subnormal (sign : Sign) {m : ℕ} (hhigh : m < 2 ^ 52) (h : 0 < m) :
    UnpackedFloat.unpack Format.binary64
        (packComponents Format.binary64 sign 0#11 (BitVec.ofNat 52 m))
      = .finite sign m (-1074) h := by
  -- The field is wide enough for the mantissa, and it is not empty.
  have hmantissa : (BitVec.ofNat 52 m).toNat = m := by
    rw [BitVec.toNat_ofNat]
    omega
  have hzero : BitVec.ofNat 52 m ≠ 0#52 := fun heq => by
    rw [heq] at hmantissa
    change 0 = m at hmantissa
    omega
  have hinfinite : (0#11 : BitVec 11) ≠ -1#11 := by decide
  unfold UnpackedFloat.unpack
  simp only [unpackMantissa_packComponents, unpackExponent_packComponents,
    unpackSign_packComponents, Sign.ofBitVec_toBitVec, hinfinite, if_true, if_false, hzero,
    dite_false, hmantissa]
  rfl

/-- **Packing and unpacking** gives a mantissa and an exponent back, if they are those of a float.
-/
theorem unpack_pack {m : ℕ} {e : ℤ} (h : Canonical m e) (sign : Sign) :
    (Float.Model.pack (.finite sign m e h.pos)).unpack = .finite sign m e h.pos := by
  show UnpackedFloat.unpack Format.binary64
    (UnpackedFloat.pack Format.binary64 (.finite sign m e h.pos)) = _
  by_cases hnormal : 2 ^ 52 ≤ m
  · have hleast := h.least_le
    have hgreatest := h.le_greatest
    -- The field holds the exponent of the least bit, raised by the bias and the mantissa's bits.
    obtain ⟨k, hk⟩ := Int.eq_ofNat_of_zero_le (by omega : 0 ≤ e + 1075)
    obtain rfl : e = k - 1075 := by omega
    rw [pack_normal hnormal h.lt (by omega)]
    exact unpack_normal sign hnormal h.lt (by omega) (by omega) h.pos
  · obtain rfl : e = -1074 := h.normal.resolve_left hnormal
    rw [pack_subnormal (not_le.1 hnormal)]
    exact unpack_subnormal sign (not_le.1 hnormal) h.pos

/-- A float with a mantissa and an exponent in range is finite. -/
theorem isFinite_ofModel_pack {m : ℕ} {e : ℤ} (h : Canonical m e) (sign : Sign) :
    (Float.ofModel (.pack (.finite sign m e h.pos))).isFinite = true := by
  show (Float.Model.pack (.finite sign m e h.pos)).unpack.isFinite = true
  rw [unpack_pack h]
  rfl

/-- A finite float is zero or has a mantissa. -/
theorem unpack_of_isFinite {x : Float} (h : x.isFinite = true) :
    (∃ sign, x.toModel.unpack = .zero sign) ∨
      ∃ sign m e hm, x.toModel.unpack = .finite sign m e hm := by
  change x.toModel.unpack.isFinite = true at h
  cases hx : x.toModel.unpack with
  | notANumber | infinity =>
    rw [hx] at h
    cases h
  | zero sign => exact .inl ⟨sign, rfl⟩
  | finite sign m e hm => exact .inr ⟨sign, m, e, hm, rfl⟩

/-! ### Magnitudes -/

/-- The bit pattern of a float. -/
def bitPattern (x : Float) : BitVec Format.binary64.numBits :=
  x.toModel.toBits.toBitVec

theorem unpack_bitPattern (x : Float) :
    x.toModel.unpack = UnpackedFloat.unpack Format.binary64 (bitPattern x) := rfl

/-- The sign of an unpacked float, unless it is no number. -/
def sign? : UnpackedFloat → Option Sign
  | .notANumber => none
  | .infinity sign | .zero sign | .finite sign .. => some sign

/-- A float is negative if its sign bit says so. -/
theorem isNegative_iff (x : Float) :
    isNegative x = true ↔ Sign.ofBitVec (unpackSign (bitPattern x)) = .negative := by
  have hbit : (unpackSign (bitPattern x)).toNat = x.toBits.toNat / Nat.pow 2 63 :=
    toNat_unpackSign (bitPattern x)
  have hlt := (unpackSign (bitPattern x)).isLt
  unfold isNegative
  rw [decide_eq_true_iff, ← hbit, Sign.ofBitVec]
  -- The sign is a bit, so that it is zero or one.
  split
  · rename_i hzero
    rw [hzero]
    exact iff_of_false (by decide) fun h => nomatch h
  · rename_i hone
    have hne : (unpackSign (bitPattern x)).toNat ≠ 0 := fun h => hone (BitVec.eq_of_toNat_eq h)
    exact iff_of_true (by omega) rfl

/-- The sign bit is that of the unpacked float. -/
theorem isNegative_of_sign? {x : Float} {sign : Sign} (h : sign? x.toModel.unpack = some sign) :
    isNegative x = true ↔ sign = .negative := by
  have hsign : Sign.ofBitVec (unpackSign (bitPattern x)) = sign := by
    rw [unpack_bitPattern] at h
    unfold UnpackedFloat.unpack at h
    dsimp only at h
    -- Whatever is unpacked with a sign has that of the sign bit.
    split_ifs at h <;> simp [sign?] at h <;> exact h
  rw [isNegative_iff, hsign]

/-- The magnitude by the fields of the bit pattern. -/
theorem Magnitude.ofFloat_eq (x : Float) :
    Magnitude.ofFloat x =
      if (unpackExponent (bitPattern x)).toNat = 0 then
        ⟨(unpackMantissa (bitPattern x)).toNat, -1074, false⟩
      else
        ⟨2 ^ 52 + (unpackMantissa (bitPattern x)).toNat,
          (unpackExponent (bitPattern x)).toNat - 1075,
          (unpackMantissa (bitPattern x)).toNat == 0
            && 1 < (unpackExponent (bitPattern x)).toNat⟩ := by
  rw [toNat_unpackExponent, toNat_unpackMantissa]
  rfl

/-- **The magnitude of a float other than zero** has the mantissa and the exponent of the unpacked
float. -/
theorem Magnitude.ofFloat_of_finite {x : Float} {sign : Sign} {m : ℕ} {e : ℤ} {h : 0 < m}
    (hx : x.toModel.unpack = .finite sign m e h) :
    Canonical m e ∧ Magnitude.ofFloat x = ⟨m, e, decide (m = 2 ^ 52 ∧ -1074 < e)⟩ := by
  have hfraction : (unpackMantissa (bitPattern x)).toNat < 2 ^ 52 :=
    (unpackMantissa (bitPattern x)).isLt
  have hfield : (unpackExponent (bitPattern x)).toNat < 2 ^ 11 :=
    (unpackExponent (bitPattern x)).isLt
  rw [unpack_bitPattern] at hx
  rw [Magnitude.ofFloat_eq]
  unfold UnpackedFloat.unpack at hx
  dsimp only at hx
  -- The exponent field is all ones, zero, or between the two.
  split_ifs at hx with hinfinite _ hzero _
  · -- A subnormal float.
    obtain ⟨-, rfl, rfl⟩ := UnpackedFloat.finite.inj hx
    have hexponent : ((unpackExponent (bitPattern x)).toNat : ℤ) - (Format.binary64.exponentBias
        + Format.binary64.mantissaBitsWithoutImplicit) + 1 = -1074 := by
      rw [hzero]
      rfl
    have hfield₀ : (unpackExponent (bitPattern x)).toNat = 0 := by
      rw [hzero]
      rfl
    rw [hexponent, if_pos hfield₀]
    refine ⟨⟨h, by omega, le_refl _, by omega, .inr rfl⟩, ?_⟩
    simp
  · -- A normal float.
    obtain ⟨-, rfl, rfl⟩ := UnpackedFloat.finite.inj hx
    have hexponent : ((unpackExponent (bitPattern x)).toNat : ℤ) - (Format.binary64.exponentBias
        + Format.binary64.mantissaBitsWithoutImplicit)
          = (unpackExponent (bitPattern x)).toNat - 1075 := rfl
    have hleast : (unpackExponent (bitPattern x)).toNat ≠ 0 := fun h =>
      hzero (BitVec.eq_of_toNat_eq h)
    have hgreatest : (unpackExponent (bitPattern x)).toNat ≠ 2047 := fun h =>
      hinfinite (BitVec.eq_of_toNat_eq h)
    rw [hexponent, if_neg hleast, toNat_append_one]
    refine ⟨⟨by omega, by omega, by omega, by omega, .inl (by omega)⟩, ?_⟩
    congr 1
    rw [Bool.eq_iff_iff, Bool.and_eq_true, beq_iff_eq, decide_eq_true_iff, decide_eq_true_iff]
    omega

theorem Magnitude.ofFloat_of_zero {x : Float} {sign : Sign} (hx : x.toModel.unpack = .zero sign) :
    Magnitude.ofFloat x = ⟨0, -1074, false⟩ := by
  rw [unpack_bitPattern] at hx
  rw [Magnitude.ofFloat_eq]
  unfold UnpackedFloat.unpack at hx
  dsimp only at hx
  split_ifs at hx with hinfinite hinf hleast hzero
  rw [hleast, hzero]
  rfl

end Scoresheet.Decimal
