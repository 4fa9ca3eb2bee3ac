import Scoresheet.Decimal.Layout
import Scoresheet.Formula.Binding
import Scoresheet.Proofs.Basic
import Scoresheet.Proofs.Decimal.Shortest

/-!
# The text of a float reads back

The values of an answer reach its formula as texts. That a finite float comes back from its text as
it was, with the sign of zero, is what makes the detour harmless; an infinity and what is no number
come back as no finite number.

* `magnitude?_positionalText` — positional text is read as a decimal of the same value.
* `Text.trim_eq_self` — the blanks cut off a text are none of its digits.
* `signed_nearest_eq` — the digits of a finite float and its sign make up the float.
* `ofText?_plain` — the text of a finite float reads back.
* `Formula.boundValue_plain` — a float bound by its text is bound as itself.

The decimal that is read is not always the one that was written: zeros before the point are read as
digits of an integer. It has the same value, and nothing else counts (`Digits.value`).
-/

namespace Scoresheet.Decimal

/-! ### Digits -/

theorem digitsValue_eq (run : List Char) : digitsValue run = Nat.ofDigitChars 10 run 0 := by
  unfold digitsValue
  rw [Nat.ofDigitChars_eq_foldl]

theorem digitsValue_append_zeros (run : List Char) (n : ℕ) :
    digitsValue (run ++ List.replicate n '0') = digitsValue run * 10 ^ n := by
  rw [digitsValue_eq, digitsValue_eq, Nat.ofDigitChars_append, Nat.ofDigitChars_replicate_zero,
    mul_comm]

theorem digitsValue_zeros_append (n : ℕ) (run : List Char) :
    digitsValue (List.replicate n '0' ++ run) = digitsValue run := by
  rw [digitsValue_eq, digitsValue_eq, Nat.ofDigitChars_append, Nat.ofDigitChars_replicate_zero,
    mul_zero]

@[simp] theorem digitsValue_digitChars (n : ℕ) : digitsValue (digitChars n) = n := by
  rw [digitsValue_eq]
  exact Nat.ofDigitChars_ten_toDigits

theorem isDigit_of_mem_digitChars {n : ℕ} : ∀ c ∈ digitChars n, c.isDigit :=
  fun _ => Nat.isDigit_of_mem_toDigits (by norm_num) (by norm_num)

theorem isDigit_of_mem_zeros {n : ℕ} : ∀ c ∈ List.replicate n '0', c.isDigit := by
  intro c hc
  rw [List.eq_of_mem_replicate hc]
  rfl

theorem digitChars_ne_nil (n : ℕ) : digitChars n ≠ [] := Nat.toDigits_ne_nil

/-- A digit is none of the characters that are no digits. -/
theorem ne_of_isDigit {c d : Char} (hc : c.isDigit) (hd : d.isDigit = false) : c ≠ d := by
  rintro rfl
  rw [hc] at hd
  cases hd

/-! ### Reading digits -/

theorem spanDigits_append {run rest : List Char} (hrun : ∀ c ∈ run, c.isDigit)
    (hrest : ∀ c ∈ rest.head?, c.isDigit = false) : spanDigits (run ++ rest) = (run, rest) := by
  rw [spanDigits, takeWhile_append_of_stop hrun hrest, dropWhile_append_of_stop hrun hrest]

theorem spanDigits_eq_self {run : List Char} (h : ∀ c ∈ run, c.isDigit) :
    spanDigits run = (run, []) := by
  have hempty : ∀ c ∈ ([] : List Char).head?, c.isDigit = false := by simp
  simpa using spanDigits_append h hempty

/-- Digits without a point. -/
theorem magnitude?_digits {whole : List Char} (hne : whole ≠ []) (hwhole : ∀ c ∈ whole, c.isDigit) :
    magnitude? whole = some (nearest (digitsValue whole) 0) := by
  unfold magnitude?
  rw [spanDigits_eq_self hwhole]
  simp [hne, exponent?]

/-- Digits with a point among them. -/
theorem magnitude?_point {whole fraction : List Char} (hne : whole ≠ [] ∨ fraction ≠ [])
    (hwhole : ∀ c ∈ whole, c.isDigit) (hfraction : ∀ c ∈ fraction, c.isDigit) :
    magnitude? (whole ++ '.' :: fraction)
      = some (nearest (digitsValue (whole ++ fraction)) (-fraction.length)) := by
  have hspan : spanDigits (whole ++ '.' :: fraction) = (whole, '.' :: fraction) :=
    spanDigits_append hwhole (by simp)
  unfold magnitude?
  rw [hspan]
  simp [spanDigits_eq_self hfraction, not_and_or.2 hne, exponent?]

section Positional

variable {ds : List Char} (hne : ds ≠ []) (hds : ∀ c ∈ ds, c.isDigit)

include hne hds

/-- Zeros behind the digits are digits of an integer. -/
theorem magnitude?_zeros_behind (k : ℕ) :
    magnitude? (ds ++ List.replicate k '0') = some (nearest (digitsValue ds * 10 ^ k) 0) := by
  rw [magnitude?_digits (List.append_ne_nil_of_left_ne_nil hne _)
    (List.forall_mem_append.2 ⟨hds, isDigit_of_mem_zeros⟩), digitsValue_append_zeros]

/-- The point among the digits. -/
theorem magnitude?_point_within {k : ℕ} (hk : 0 < k) :
    magnitude? (ds.take k ++ '.' :: ds.drop k)
      = some (nearest (digitsValue ds) (-(ds.length - k : ℕ))) := by
  have htake : ds.take k ≠ [] := by
    rw [Ne, List.take_eq_nil_iff, not_or]
    exact ⟨hk.ne', hne⟩
  rw [magnitude?_point (.inl htake) (fun c hc => hds c (List.mem_of_mem_take hc))
    (fun c hc => hds c (List.mem_of_mem_drop hc)), List.take_append_drop, List.length_drop]

omit hne in
/-- Zeros before the digits, the point behind the first of them. -/
theorem magnitude?_point_before (k : ℕ) :
    magnitude? ('0' :: '.' :: List.replicate k '0' ++ ds)
      = some (nearest (digitsValue ds) (-(k + ds.length : ℕ))) := by
  have hzero : ∀ c ∈ ['0'], c.isDigit := isDigit_of_mem_zeros (n := 1)
  have hread := magnitude?_point (.inl (List.cons_ne_nil '0' [])) hzero
    (List.forall_mem_append.2 ⟨isDigit_of_mem_zeros (n := k), hds⟩)
  have hall : ['0'] ++ (List.replicate k '0' ++ ds) = List.replicate (k + 1) '0' ++ ds := rfl
  rw [hall, digitsValue_zeros_append, List.length_append, List.length_replicate] at hread
  exact hread

end Positional

/-- **Positional text** is read as a decimal of the same value. -/
theorem magnitude?_positionalText (d : Digits) :
    ∃ d' : Digits, d'.value = d.value ∧
      magnitude? (positionalText false d) = some (nearest d'.digits d'.exponent) := by
  have hne := digitChars_ne_nil d.digits
  have hdigits := isDigit_of_mem_digitChars (n := d.digits)
  have hvalue := digitsValue_digitChars d.digits
  unfold positionalText
  dsimp only
  generalize digitChars d.digits = ds at hne hdigits hvalue
  split
  · rename_i hexponent
    obtain ⟨k, hk⟩ := Int.eq_ofNat_of_zero_le hexponent
    refine ⟨⟨d.digits * 10 ^ k, 0⟩, ?_, ?_⟩
    · unfold Digits.value
      rw [hk, zpow_natCast]
      push_cast
      ring
    · rw [hk, Int.toNat_natCast, if_neg Bool.false_ne_true, List.append_nil,
        magnitude?_zeros_behind hne hdigits, hvalue]
  · rename_i hexponent
    -- The exponent is the number of digits behind the point, whichever zeros are written.
    refine ⟨d, rfl, ?_⟩
    split
    · rename_i hpoint
      obtain ⟨k, hk⟩ := Int.eq_ofNat_of_zero_le hpoint.le
      have hplaces : (-(ds.length - k : ℕ) : ℤ) = d.exponent := by omega
      rw [hk, Int.toNat_natCast, magnitude?_point_within hne hdigits (by omega), hvalue, hplaces]
    · rename_i hpoint
      obtain ⟨k, hk⟩ := Int.eq_ofNat_of_zero_le (by omega : 0 ≤ -((ds.length : ℤ) + d.exponent))
      have hplaces : (-(k + ds.length : ℕ) : ℤ) = d.exponent := by
        push_cast
        omega
      rw [hk, Int.toNat_natCast, magnitude?_point_before hdigits, hvalue, hplaces]

/-! ### The first character -/

/-- Positional text starts with a digit. -/
theorem exists_positionalText_eq_cons (d : Digits) :
    ∃ c rest, positionalText false d = c :: rest ∧ c.isDigit := by
  obtain ⟨c, rest, hds⟩ := List.exists_cons_of_ne_nil (digitChars_ne_nil d.digits)
  have hc : c.isDigit := isDigit_of_mem_digitChars c (by rw [hds]; exact List.mem_cons_self)
  -- By where the point stands. In front of the digits there is a zero, and otherwise the first
  -- digit comes first.
  unfold positionalText
  dsimp only
  rw [hds]
  split
  · exact ⟨c, _, rfl, hc⟩
  · split
    · rename_i hpoint
      -- A digit at least stands before the point.
      obtain ⟨k, hk⟩ := Int.eq_ofNat_of_zero_le hpoint.le
      obtain ⟨k, rfl⟩ := Nat.exists_eq_succ_of_ne_zero (by omega : k ≠ 0)
      rw [hk, Int.toNat_natCast]
      exact ⟨c, _, rfl, hc⟩
    · exact ⟨'0', _, rfl, rfl⟩

/-- A text that starts with a digit has no sign. -/
theorem spanSign_of_isDigit {c : Char} (hc : c.isDigit) (rest : List Char) :
    spanSign (c :: rest) = (false, c :: rest) := by
  unfold spanSign
  split
  · exact absurd (List.cons.inj ‹_›).1 (ne_of_isDigit hc rfl)
  · exact absurd (List.cons.inj ‹_›).1 (ne_of_isDigit hc rfl)
  · rfl

theorem toLower_of_isDigit {c : Char} (hc : c.isDigit) : c.toLower = c := by
  refine Char.toLower_eq_of_not_isUpper fun hupper => ?_
  obtain ⟨-, hhigh⟩ := Char.isDigit_iff_toNat.1 hc
  have hlow : 65 ≤ c.toNat := UInt32.le_iff_toNat_le.1 (of_decide_eq_true hupper).1
  change c.toNat ≤ 57 at hhigh
  omega

/-- A text that starts with a digit is no word. -/
theorem word?_of_isDigit {c : Char} (hc : c.isDigit) (rest : List Char) :
    word? (c :: rest) = none := by
  unfold word?
  rw [List.map_cons, toLower_of_isDigit hc]
  split
  · exact absurd (List.cons.inj ‹_›).1 (ne_of_isDigit hc rfl)
  · exact absurd (List.cons.inj ‹_›).1 (ne_of_isDigit hc rfl)
  · exact absurd (List.cons.inj ‹_›).1 (ne_of_isDigit hc rfl)
  · rfl

/-- Positional text is read by its digits. -/
theorem ofText?_positionalText (d : Digits) :
    ofText? (positionalText false d) = magnitude? (positionalText false d) := by
  obtain ⟨c, rest, htext, hc⟩ := exists_positionalText_eq_cons d
  unfold ofText?
  rw [htext, spanSign_of_isDigit hc]
  simp [word?_of_isDigit hc]

theorem ofText?_neg_positionalText (d : Digits) :
    ofText? ('-' :: positionalText false d)
      = (magnitude? (positionalText false d)).map (- ·) := by
  obtain ⟨c, rest, htext, hc⟩ := exists_positionalText_eq_cons d
  unfold ofText?
  rw [htext]
  simp [spanSign, word?_of_isDigit hc]

/-! ### The characters -/

theorem isDigit_or_eq_of_mem_positionalText {d : Digits} {c : Char}
    (hc : c ∈ positionalText false d) : c.isDigit ∨ c = '.' := by
  have hdigits := isDigit_of_mem_digitChars (n := d.digits)
  -- By where the point stands: behind the digits, among them or in front.
  unfold positionalText at hc
  dsimp only at hc
  split at hc
  · rw [if_neg Bool.false_ne_true, List.append_nil] at hc
    exact .inl ((List.mem_append.1 hc).elim (hdigits c) (isDigit_of_mem_zeros c))
  · split at hc
    · obtain hc | hc := List.mem_append.1 hc
      · exact .inl (hdigits c (List.mem_of_mem_take hc))
      · obtain rfl | hc := List.mem_cons.1 hc
        · exact .inr rfl
        · exact .inl (hdigits c (List.mem_of_mem_drop hc))
    · obtain hc | hc := List.mem_append.1 hc
      · obtain rfl | hc := List.mem_cons.1 hc
        · exact .inl rfl
        · obtain rfl | hc := List.mem_cons.1 hc
          · exact .inr rfl
          · exact .inl (isDigit_of_mem_zeros c hc)
      · exact .inl (hdigits c hc)

end Scoresheet.Decimal

namespace Scoresheet.Text

/-- There is no blank from the first digit to the last letter. -/
theorem isBlank_eq_false_of_le {c : Char} (hlow : 48 ≤ c.toNat) (hhigh : c.toNat ≤ 122) :
    isBlank c = false := by
  have hapart : ∀ range ∈ blankRanges, range.2 < 48 ∨ 122 < range.1 := by decide
  unfold isBlank
  rw [← Bool.not_eq_true, inRanges_iff]
  rintro ⟨range, hrange, hfirst, hlast⟩
  obtain hbelow | habove := hapart range hrange
  · omega
  · omega

theorem isBlank_of_isDigit {c : Char} (hc : c.isDigit) : isBlank c = false := by
  obtain ⟨hlow, hhigh⟩ := Char.isDigit_iff_toNat.1 hc
  change 48 ≤ c.toNat at hlow
  change c.toNat ≤ 57 at hhigh
  exact isBlank_eq_false_of_le hlow (by omega)

theorem trim_eq_self {text : List Char} (h : ∀ c ∈ text, isBlank c = false) :
    trim text = text := by
  have hdrop : ∀ run : List Char, (∀ c ∈ run, isBlank c = false) → run.dropWhile isBlank = run := by
    intro run hrun
    cases run with
    | nil => rfl
    | cons c run => simp [hrun c List.mem_cons_self]
  unfold trim trimStart
  rw [hdrop text h, hdrop text.reverse (fun c hc => h c (List.mem_reverse.1 hc)),
    List.reverse_reverse]

end Scoresheet.Text

namespace Scoresheet.Decimal

open Float.Model
open Float.Model.UnpackedFloat

/-! ### Floats -/

/-- A float that is not finite is an infinity or no number. -/
theorem eq_of_not_isFinite {x : Float} (h : x.isFinite = false) :
    x = 0.0 / 0.0 ∨ x = 1.0 / 0.0 ∨ x = -(1.0 / 0.0) := by
  have hpack := ofModel_pack_unpack x
  change x.toModel.unpack.isFinite = false at h
  -- There is one float that is no number, and one infinity with each sign.
  cases hx : x.toModel.unpack with
  | zero | finite =>
    rw [hx] at h
    cases h
  | notANumber =>
    left
    rw [← hpack, hx]
    decide +kernel
  | infinity sign =>
    right
    rw [← hpack, hx]
    cases sign with
    | positive =>
      left
      decide +kernel
    | negative =>
      right
      decide +kernel

/-- The text of a finite float by its sign and its magnitude. -/
theorem toList_text_of_isFinite {layout : Layout} {x : Float} (h : x.isFinite = true) :
    (layout.text x).toList = if isNegative x then '-' :: layout.magnitudeText (.ofFloat x)
      else layout.magnitudeText (.ofFloat x) := by
  -- A finite float is a number.
  have hnan : x.isNaN = false := by
    obtain ⟨sign, hx⟩ | ⟨sign, m, e, hm, hx⟩ := unpack_of_isFinite h
    · show x.toModel.unpack.isNaN = false
      rw [hx]
      rfl
    · show x.toModel.unpack.isNaN = false
      rw [hx]
      rfl
  unfold Layout.text
  rw [hnan, h, if_neg Bool.false_ne_true]
  simp only [if_true, String.toList_ofList]

/-- The positional text of a finite float. -/
theorem toList_plain_of_isFinite {x : Float} (h : x.isFinite = true) :
    (plain x).toList = if isNegative x
      then '-' :: positionalText false ((Magnitude.ofFloat x).shortest .away)
      else positionalText false ((Magnitude.ofFloat x).shortest .away) :=
  toList_text_of_isFinite h

/-- A finite float's text has no blanks. -/
theorem trim_plain {x : Float} (h : x.isFinite = true) :
    Text.trim (plain x).toList = (plain x).toList := by
  -- Digits and a point are no blanks, and neither is the sign.
  have hbody : ∀ d, ∀ c ∈ positionalText false d, Text.isBlank c = false := by
    intro d c hc
    obtain hc | rfl := isDigit_or_eq_of_mem_positionalText hc
    · exact Text.isBlank_of_isDigit hc
    · decide
  apply Text.trim_eq_self
  rw [toList_plain_of_isFinite h]
  split
  · exact List.forall_mem_cons.2 ⟨by decide, hbody _⟩
  · exact hbody _

/-- The digits of a finite float are those of zero, or there is one that is not zero. -/
theorem shortest_eq_zero_or_pos {x : Float} (h : x.isFinite = true) (tie : Tie) :
    (Magnitude.ofFloat x).shortest tie = ⟨0, 0⟩ ∨
      0 < ((Magnitude.ofFloat x).shortest tie).digits := by
  obtain ⟨sign, hunpack⟩ | ⟨sign, m, e, hm, hunpack⟩ := unpack_of_isFinite h
  · left
    rw [Magnitude.ofFloat_of_zero hunpack]
    rfl
  · right
    obtain ⟨hm, hofFloat⟩ := Magnitude.ofFloat_of_finite hunpack
    rw [hofFloat]
    exact (Magnitude.roundsTo_shortest hm tie).digits_pos hm

/-- A decimal with the value of the digits of a float is read as the float's magnitude. -/
theorem nearest_of_value_eq {x : Float} {sign : Sign} {m : ℕ} {e : ℤ} {h : 0 < m}
    (hx : x.toModel.unpack = .finite sign m e h) {tie : Tie} {d : Digits}
    (hd : d.value = ((Magnitude.ofFloat x).shortest tie).value) :
    nearest d.digits d.exponent = .ofModel (.pack (.finite .positive m e h)) := by
  obtain ⟨hm, hofFloat⟩ := Magnitude.ofFloat_of_finite hx
  have hrounds : RoundsTo d.value m e := by
    rw [hd, hofFloat]
    exact Magnitude.roundsTo_shortest hm tie
  exact nearest_eq (hrounds.digits_pos hm) hm hrounds

/-- **The digits of a finite float and its sign** make up the float, zero included. -/
theorem signed_nearest_eq {x : Float} (h : x.isFinite = true) {tie : Tie} {d : Digits}
    (hd : d.value = ((Magnitude.ofFloat x).shortest tie).value) :
    (nearest d.digits d.exponent).isFinite = true ∧
      (if isNegative x then -nearest d.digits d.exponent else nearest d.digits d.exponent) = x := by
  have hpack := ofModel_pack_unpack x
  obtain ⟨sign, hunpack⟩ | ⟨sign, m, e, hm, hunpack⟩ := unpack_of_isFinite h
  · have hneg := isNegative_of_sign? (by rw [hunpack]; rfl : sign? x.toModel.unpack = some sign)
    have hzero : d.digits = 0 := by
      rw [Magnitude.ofFloat_of_zero hunpack] at hd
      have hpos : (10 : ℚ) ^ d.exponent ≠ 0 := by positivity
      simpa [Digits.value, Magnitude.shortest, hpos] using hd
    rw [hunpack] at hpack
    have hnearest : nearest d.digits d.exponent = 0.0 := if_pos hzero
    rw [hnearest]
    refine ⟨by decide +kernel, ?_⟩
    cases sign with
    | positive =>
      rw [if_neg (by simp [hneg]), ← hpack]
      decide +kernel
    | negative =>
      rw [if_pos (by simp [hneg]), ← hpack]
      decide +kernel
  · have hneg := isNegative_of_sign? (by rw [hunpack]; rfl : sign? x.toModel.unpack = some sign)
    have hcanonical := (Magnitude.ofFloat_of_finite hunpack).1
    rw [nearest_of_value_eq hunpack hd]
    refine ⟨isFinite_ofModel_pack hcanonical .positive, ?_⟩
    rw [hunpack] at hpack
    cases sign with
    | positive => rw [if_neg (by simp [hneg]), hpack]
    | negative =>
      rw [if_pos (by simp [hneg]), ← hpack]
      -- The magnitude is packed, and negation unpacks it again to flip the sign.
      show Float.ofModel (.pack (UnpackedFloat.neg
        (Float.Model.pack (.finite .positive m e hm)).unpack)) = _
      rw [unpack_pack hcanonical]
      rfl

/-- **The text of a finite float reads back.** -/
theorem ofText?_plain {x : Float} (h : x.isFinite = true) : ofText? (plain x).toList = some x := by
  obtain ⟨d, hvalue, hread⟩ := magnitude?_positionalText ((Magnitude.ofFloat x).shortest .away)
  have hsigned := (signed_nearest_eq h hvalue).2
  rw [toList_plain_of_isFinite h]
  split at hsigned
  · rw [if_pos ‹_›, ofText?_neg_positionalText, hread, Option.map_some, hsigned]
  · rw [if_neg ‹_›, ofText?_positionalText, hread, hsigned]

/-- The text of a float that is not finite reads as a float that is not finite. -/
theorem exists_ofText?_plain {x : Float} (h : x.isFinite = false) :
    ∃ y, ofText? (Text.trim (plain x).toList) = some y ∧ y.isFinite = false := by
  obtain rfl | rfl | rfl := eq_of_not_isFinite h
  · exact ⟨0.0 / 0.0, by decide +kernel, h⟩
  · exact ⟨1.0 / 0.0, by decide +kernel, h⟩
  · exact ⟨-(1.0 / 0.0), by decide +kernel, h⟩

end Scoresheet.Decimal

namespace Scoresheet.Formula

/-- **A float bound by its text** is bound as itself if it is finite, and not at all otherwise. -/
theorem boundValue_plain (name : String) (x : Float) :
    boundValue name (Decimal.plain x)
      = if x.isFinite then .ok x else .error (.invalidBinding name (Decimal.plain x)) := by
  unfold boundValue
  cases h : x.isFinite with
  | true =>
    rw [Decimal.trim_plain h, Decimal.ofText?_plain h]
    simp only [h]
  | false =>
    obtain ⟨y, hy, hfinite⟩ := Decimal.exists_ofText?_plain h
    rw [hy]
    simp only [hfinite, Bool.false_eq_true, if_false]

end Scoresheet.Formula
