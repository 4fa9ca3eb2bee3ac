import Scoresheet.Proofs.Decimal.Scientific

/-!
# Signs of floats

Rounding leaves the sign alone, so that a product or a quotient has the sign that the signs of its
operands make. A decimal without a sign is read as such a product or quotient, and it denotes a
float without a sign, be it zero or infinite.

* `isNegative_pack_iff` — the sign bit of what is packed.
* `Unsigned` — an unpacked float without a minus sign.
* `exists_of_sign?_mul`, `exists_of_sign?_div` — the sign of a product and of a quotient.
* `isNegative_nearest` — the float nearest to a decimal has no sign.
-/

namespace Scoresheet.Decimal

open Float.Model
open Float.Model.UnpackedFloat

/-! ### The sign bit -/

/-- The sign bit of a packed float is its sign. -/
theorem unpackSign_pack {f : UnpackedFloat} {sign : Sign} (h : sign? f = some sign) :
    Sign.ofBitVec (unpackSign (UnpackedFloat.pack Format.binary64 f)) = sign := by
  have hcomponents (s : Sign) (exponent : BitVec Format.binary64.exponentBits)
      (mantissa : BitVec Format.binary64.mantissaBitsWithoutImplicit) :
      Sign.ofBitVec (unpackSign (packComponents Format.binary64 s exponent mantissa)) = s := by
    rw [unpackSign_packComponents, Sign.ofBitVec_toBitVec]
  unfold UnpackedFloat.pack
  cases f with
  | notANumber => cases h
  | infinity s =>
    obtain rfl := Option.some.inj h
    exact hcomponents _ _ _
  | zero s =>
    obtain rfl := Option.some.inj h
    exact hcomponents _ _ _
  | finite s m e hm =>
    obtain rfl := Option.some.inj h
    dsimp only
    -- An infinity, a normal float and a subnormal one have their sign bits in the same place.
    split_ifs
    · exact hcomponents _ _ _
    · exact hcomponents _ _ _
    · exact hcomponents _ _ _

/-- A float is packed as a negative one exactly if it has the minus sign. -/
theorem isNegative_pack_iff {f : UnpackedFloat} :
    isNegative (.ofModel (.pack f)) = true ↔ sign? f = some .negative := by
  cases hf : sign? f with
  | none =>
    cases f with
    | notANumber => exact iff_of_false (by decide +kernel) (Option.some_ne_none _).symm
    | infinity | zero | finite => cases hf
  | some sign =>
    have hsign : Sign.ofBitVec (unpackSign (bitPattern (.ofModel (.pack f)))) = sign :=
      unpackSign_pack hf
    rw [isNegative_iff, hsign, Option.some_inj]

/-- **An unpacked float without a minus sign.** What is no number has no sign at all. -/
def Unsigned (f : UnpackedFloat) : Prop :=
  sign? f ≠ some .negative

theorem Unsigned.isNegative_pack {f : UnpackedFloat} (h : Unsigned f) :
    isNegative (.ofModel (.pack f)) = false :=
  Bool.not_eq_true _ ▸ mt isNegative_pack_iff.1 h

theorem unsigned_unpack {x : Float} (h : isNegative x = false) : Unsigned x.toModel.unpack := by
  intro hsign
  rw [(isNegative_of_sign? hsign).2 rfl] at h
  cases h

/-- A finite float without a sign is not below zero. -/
theorem zero_le_of_isNegative {x : Float} (hfinite : x.isFinite = true)
    (hsign : isNegative x = false) : (0.0 : Float) ≤ x := by
  have hle : (0.0 : Float) ≤ x ↔
      UnpackedFloat.le (.zero .positive) x.toModel.unpack = true := by
    show decide ((0.0 : Float).toModel ≤ x.toModel) = true ↔ _
    exact decide_eq_true_iff
  have hunsigned := unsigned_unpack hsign
  rw [hle]
  -- A zero is not less than zero, whatever its sign is, and the sign of any other float decides.
  obtain ⟨sign, hx⟩ | ⟨sign, m, e, h, hx⟩ := unpack_of_isFinite hfinite
  · rw [hx] at hunsigned ⊢
    cases sign <;> rfl
  · rw [hx] at hunsigned ⊢
    cases sign with
    | positive => rfl
    | negative => exact absurd rfl hunsigned

/-! ### Products and quotients -/

section Sign

variable (spec : Format) (sign : Sign) (m : ℕ) (e : ℤ)

@[simp] theorem sign?_notANumber : sign? .notANumber = none := rfl

@[simp] theorem sign?_infinity : sign? (.infinity sign) = some sign := rfl

@[simp] theorem sign?_zero : sign? (.zero sign) = some sign := rfl

@[simp] theorem sign?_finite (h : 0 < m) : sign? (.finite sign m e h) = some sign := rfl

/-- Rounding keeps the sign, also where nothing is left but zero. -/
@[simp] theorem sign?_roundWithAccuracy (accuracy : Accuracy) :
    sign? (roundWithAccuracy spec sign m e accuracy) = some sign := by
  unfold roundWithAccuracy
  dsimp only
  split <;> rfl

end Sign

section Operations

variable {spec : Format} {f g : UnpackedFloat} {sign : Sign}

/-- A product has a sign only if both factors do, and then it is the product of theirs. -/
theorem exists_of_sign?_mul (h : sign? (UnpackedFloat.mul spec f g) = some sign) :
    ∃ s t, sign? f = some s ∧ sign? g = some t ∧ sign = s * t := by
  cases f <;> cases g <;> simp [UnpackedFloat.mul] at h ⊢ <;> exact h.symm

/-- A quotient has a sign only if its operands do, and then it is the quotient of theirs. -/
theorem exists_of_sign?_div (h : sign? (UnpackedFloat.div spec f g) = some sign) :
    ∃ s t, sign? f = some s ∧ sign? g = some t ∧ sign = s / t := by
  cases f <;> cases g <;> simp [UnpackedFloat.div] at h ⊢ <;> exact h.symm

/-- What has the sign that two signs make has none, if the two are plus signs and make one. -/
theorem unsigned_of_signs {r : UnpackedFloat} {op : Sign → Sign → Sign}
    (hop : op .positive .positive = .positive)
    (h : ∀ sign, sign? r = some sign → ∃ s t, sign? f = some s ∧ sign? g = some t ∧ sign = op s t)
    (hf : Unsigned f) (hg : Unsigned g) : Unsigned r := by
  intro hsign
  obtain ⟨s, t, hs, ht, hst⟩ := h _ hsign
  -- A minus sign of the result needs a minus sign on either side.
  cases s with
  | negative => exact hf hs
  | positive =>
    cases t with
    | negative => exact hg ht
    | positive => cases hst.trans hop

theorem Unsigned.mul (hf : Unsigned f) (hg : Unsigned g) : Unsigned (UnpackedFloat.mul spec f g) :=
  unsigned_of_signs rfl (fun _ => exists_of_sign?_mul) hf hg

theorem Unsigned.div (hf : Unsigned f) (hg : Unsigned g) : Unsigned (UnpackedFloat.div spec f g) :=
  unsigned_of_signs rfl (fun _ => exists_of_sign?_div) hf hg

end Operations

/-! ### Decimals -/

theorem unsigned_finite (m : ℕ) (e : ℤ) (h : 0 < m) : Unsigned (.finite .positive m e h) :=
  fun hsign => nomatch hsign

/-- An integral mantissa that is not below zero is rounded to a float without a sign. -/
theorem unsigned_normalize (spec : Format) {k : ℤ} (hk : 0 ≤ k) (e : ℤ) :
    Unsigned (UnpackedFloat.normalize spec k e .positive) := by
  unfold UnpackedFloat.normalize
  obtain rfl | hpos := hk.eq_or_lt
  · exact fun hsign => nomatch hsign
  · rw [Int.compare_eq_gt.2 hpos]
    show sign? (UnpackedFloat.round _ _ _ _) ≠ _
    rw [UnpackedFloat.round, sign?_roundWithAccuracy]
    exact fun hsign => nomatch hsign

theorem unsigned_ofScientific (spec : Format) (digits : ℕ) (exponent : ℤ) :
    Unsigned (UnpackedFloat.ofScientific spec digits exponent) := by
  unfold UnpackedFloat.ofScientific
  split_ifs
  · exact fun hsign => nomatch hsign
  · exact fun hsign => nomatch hsign
  · exact fun hsign => nomatch hsign
  · exact (unsigned_finite _ _ _).mul (unsigned_finite _ _ _)
  · exact (unsigned_finite _ _ _).div (unsigned_finite _ _ _)

theorem unsigned_unpack_toFloat (n : UInt64) : Unsigned n.toFloat.toModel.unpack := by
  have hnormalize : Unsigned (UnpackedFloat.ofUInt64 Format.binary64 n) :=
    unsigned_normalize _ (Int.natCast_nonneg n.toNat) 0
  exact unsigned_unpack hnormalize.isNegative_pack

theorem unsigned_unpack_power {k : ℕ} (h : k < Float.exactlyRepresentablePowersOfTen.size) :
    Unsigned Float.exactlyRepresentablePowersOfTen[k].toModel.unpack := by
  obtain ⟨m, e, hpos, hunpack, -⟩ := exists_unpack_power h
  rw [hunpack]
  exact unsigned_finite m e hpos

/-- Digits and an exponent make a float without a sign, by either of the two ways of reading them.
-/
theorem isNegative_ofScientific (digits : ℕ) (below : Bool) (size : ℕ) :
    isNegative (Float.ofScientific digits below size) = false := by
  unfold Float.ofScientific
  split
  · -- Few digits and a small exponent: the digits as an integer, times or over a power of ten.
    dsimp only
    split
    · exact ((unsigned_unpack_toFloat _).div (unsigned_unpack_power _)).isNegative_pack
    · exact ((unsigned_unpack_toFloat _).mul (unsigned_unpack_power _)).isNegative_pack
  · exact (unsigned_ofScientific _ _ _).isNegative_pack

/-- **The float nearest to a decimal** has no sign. -/
theorem isNegative_nearest (digits : ℕ) (exponent : ℤ) :
    isNegative (nearest digits exponent) = false := by
  unfold nearest
  split_ifs
  · decide +kernel
  · decide +kernel
  · decide +kernel
  · exact isNegative_ofScientific _ _ _

end Scoresheet.Decimal
