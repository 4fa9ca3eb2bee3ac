import Scoresheet.Json.Node
import Scoresheet.Proofs.Decimal.RoundTrip

/-!
# The text of a number is read

Integers and floats are written as numerals: digits, a point with digits behind it, an exponent,
where the last two may be missing. The reader takes such a text for the number that the numeral
denotes, whatever follows it, as long as that does not go on the numeral. A text may hold numerals
that are never written here, as one whose exponent has no sign; they are read all the same.

* `Numeral`, `Exponent` — a numeral by its parts.
* `parseNumber?_numeral` — a numeral is read to its end, as the number that it denotes.
* `exists_numeral_intText` — the text of an integer of 64 bits is a numeral of the integer.
* `exists_numeral_floatText` — the text of a finite float is a numeral of the float.

No numeral that is written has a needless zero before it (`head?_digitChars`), which the reader
would refuse. Zero itself is the one that needs care: its digit is followed by no zeros.
-/

namespace Scoresheet.Json

open Decimal

/-! ### Numerals -/

/-- An exponent by its parts: the mark, the sign, which may be missing, and the digits. -/
structure Exponent where
  mark : Char
  sign : List Char
  run : List Char

namespace Exponent

/-- The text of an exponent. -/
def chars (e : Exponent) : List Char :=
  e.mark :: e.sign ++ e.run

/-- The number that an exponent denotes. -/
def value (e : Exponent) : Int :=
  if e.sign = ['-'] then -(digitsValue e.run : Int) else digitsValue e.run

/-- The mark is one of two, the sign is one of two or missing, and there are digits. -/
structure WellFormed (e : Exponent) : Prop where
  mark : e.mark = 'e' ∨ e.mark = 'E'
  sign : e.sign = [] ∨ e.sign = ['+'] ∨ e.sign = ['-']
  run_ne_nil : e.run ≠ []
  isDigit_run : ∀ c ∈ e.run, c.isDigit

end Exponent

/-- An unsigned numeral by its parts: the digits before the point, those behind it, and the
exponent. Without digits behind it there is no point. -/
structure Numeral where
  whole : List Char
  fraction : List Char
  exponent : Option Exponent

namespace Numeral

/-- The point and the digits behind it. -/
def fractionChars (n : Numeral) : List Char :=
  if n.fraction = [] then [] else '.' :: n.fraction

/-- The text of the exponent, if there is one. -/
def exponentChars (n : Numeral) : List Char :=
  n.exponent.elim [] Exponent.chars

/-- The text of a numeral. -/
def chars (n : Numeral) : List Char :=
  n.whole ++ n.fractionChars ++ n.exponentChars

/-- The number that the exponent denotes. -/
def scale (n : Numeral) : Int :=
  n.exponent.elim 0 Exponent.value

/-- The decimal that a numeral denotes. -/
def decimal (n : Numeral) : Digits :=
  ⟨digitsValue (n.whole ++ n.fraction), n.scale - n.fraction.length⟩

/-- Whether there are digits alone. -/
def integral (n : Numeral) : Bool :=
  n.fraction.isEmpty && n.exponent.isNone

/-- The parts of a numeral are digits, and none is missing or needless. -/
structure WellFormed (n : Numeral) : Prop where
  whole_ne_nil : n.whole ≠ []
  isDigit_whole : ∀ c ∈ n.whole, c.isDigit
  lead : n.whole.head? = some '0' → n.whole.length = 1
  isDigit_fraction : ∀ c ∈ n.fraction, c.isDigit
  exponent : ∀ e ∈ n.exponent, e.WellFormed

end Numeral

/-- What stands behind a numeral and does not go on with it. -/
def EndsNumber (rest : List Char) : Prop :=
  ∀ c ∈ rest.head?, c.isDigit = false ∧ c ≠ '.' ∧ c ≠ 'e' ∧ c ≠ 'E'

theorem endsNumber_cons {c : Char} {rest : List Char} :
    EndsNumber (c :: rest) ↔ c.isDigit = false ∧ c ≠ '.' ∧ c ≠ 'e' ∧ c ≠ 'E' := by
  simp [EndsNumber]

theorem EndsNumber.isDigit_eq_false {rest : List Char} (h : EndsNumber rest) :
    ∀ c ∈ rest.head?, c.isDigit = false :=
  fun c hc => (h c hc).1

/-! ### Reading a numeral -/

section Reading

variable {n : Numeral} {rest : List Char}

/-- No mark of an exponent is a digit. -/
theorem Exponent.WellFormed.isDigit_mark {e : Exponent} (he : e.WellFormed) :
    e.mark.isDigit = false := by
  obtain h | h := he.mark <;> rw [h] <;> rfl

/-- The sign of an exponent is read as such, and nothing is taken for one. -/
theorem Exponent.WellFormed.spanSign_append {e : Exponent} (he : e.WellFormed) (rest : List Char) :
    spanSign (e.sign ++ (e.run ++ rest)) = (decide (e.sign = ['-']), e.run ++ rest) := by
  obtain h | h | h := he.sign
  · obtain ⟨c, run, hrun⟩ := List.exists_cons_of_ne_nil he.run_ne_nil
    have hdigit : c.isDigit := he.isDigit_run c (by rw [hrun]; exact List.mem_cons_self)
    have hminus : c ≠ '-' := ne_of_isDigit hdigit rfl
    have hplus : c ≠ '+' := ne_of_isDigit hdigit rfl
    simp [h, hrun, spanSign, hminus, hplus]
  · simp [h, spanSign]
  · simp [h, spanSign]

/-- No digit stands behind the digits of the fraction. -/
theorem Numeral.head?_after_fraction (hn : n.WellFormed) (hrest : EndsNumber rest) :
    ∀ c ∈ (n.exponentChars ++ rest).head?, c.isDigit = false := by
  unfold exponentChars
  cases h : n.exponent with
  | none => simpa using hrest.isDigit_eq_false
  | some e => simpa [Exponent.chars] using (hn.exponent e h).isDigit_mark

/-- No digit stands behind the digits before the point. -/
theorem Numeral.head?_after_whole (hn : n.WellFormed) (hrest : EndsNumber rest) :
    ∀ c ∈ (n.fractionChars ++ n.exponentChars ++ rest).head?, c.isDigit = false := by
  unfold fractionChars
  split
  · simpa using head?_after_fraction hn hrest
  · simp

/-- **A numeral is read to its end,** as the number that it denotes. -/
theorem parseNumber_numeral (hn : n.WellFormed) (hrest : EndsNumber rest) (position start : Nat)
    (negative : Bool) :
    parseNumber position negative ⟨start, n.chars ++ rest⟩
      = (numberNode position negative n.integral n.decimal.digits n.decimal.exponent,
          .ok ⟨start + n.chars.length, rest⟩) := by
  have hwhole : spanDigits (n.chars ++ rest)
      = (n.whole, n.fractionChars ++ n.exponentChars ++ rest) := by
    rw [Numeral.chars, List.append_assoc, List.append_assoc, ← List.append_assoc n.fractionChars]
    exact spanDigits_append hn.isDigit_whole (Numeral.head?_after_whole hn hrest)
  have hlead : ¬ (n.whole.head? = some '0' ∧ n.whole.length ≠ 1) := fun h => h.2 (hn.lead h.1)
  have hfraction := spanDigits_append hn.isDigit_fraction (Numeral.head?_after_fraction hn hrest)
  have hexponent := hn.exponent
  unfold parseNumber
  simp only [hwhole, hn.whole_ne_nil, hlead, if_false]
  clear hwhole hlead hn
  obtain ⟨whole, fraction, exponent⟩ := n
  simp only [Numeral.chars, Numeral.fractionChars, Numeral.exponentChars, Numeral.integral,
    Numeral.decimal, Numeral.scale] at hfraction hexponent ⊢
  -- A point and a mark are looked for in turn; what follows the numeral is neither.
  obtain rfl | hpoint := eq_or_ne fraction []
  · cases exponent with
    | none =>
      cases rest with
      | nil => simp
      | cons c rest =>
        obtain ⟨-, hc⟩ := endsNumber_cons.1 hrest
        simp [hc]
    | some e =>
      have he := hexponent e rfl
      have hrun := spanDigits_append he.isDigit_run hrest.isDigit_eq_false
      have hpoint : e.mark ≠ '.' := by obtain h | h := he.mark <;> rw [h] <;> decide
      simp [Exponent.chars, Exponent.value, he.mark, hpoint, he.spanSign_append, hrun,
        he.run_ne_nil]
      omega
  · have hempty : fraction.isEmpty = false := by simpa using hpoint
    cases exponent with
    | none =>
      simp only [hpoint, if_false, List.cons_append, List.append_nil, List.nil_append,
        Option.elim_none] at hfraction ⊢
      cases rest with
      | nil =>
        rw [List.append_nil] at hfraction
        simp [hfraction, hpoint, hempty]
        omega
      | cons c rest =>
        obtain ⟨-, hc⟩ := endsNumber_cons.1 hrest
        simp [hfraction, hc, hpoint, hempty]
        omega
    | some e =>
      have he := hexponent e rfl
      have hrun := spanDigits_append he.isDigit_run hrest.isDigit_eq_false
      simp only [hpoint, if_false, List.cons_append, List.append_assoc, Option.elim_some,
        Exponent.chars] at hfraction ⊢
      simp [Exponent.value, he.mark, he.spanSign_append, hrun, he.run_ne_nil, hfraction, hpoint]
      omega

/-- A numeral starts with a digit. -/
theorem Numeral.WellFormed.exists_chars_eq_cons (hn : n.WellFormed) :
    ∃ c tail, n.chars = c :: tail ∧ c.isDigit := by
  obtain ⟨c, whole, hwhole⟩ := List.exists_cons_of_ne_nil hn.whole_ne_nil
  refine ⟨c, whole ++ n.fractionChars ++ n.exponentChars, ?_, ?_⟩
  · rw [Numeral.chars, hwhole]
    rfl
  · exact hn.isDigit_whole c (by rw [hwhole]; exact List.mem_cons_self)

/-- The sign in front of a numeral. -/
def signChars (negative : Bool) : List Char :=
  if negative then ['-'] else []

/-- The node of a numeral behind its sign. -/
def Numeral.node (n : Numeral) (negative : Bool) (position : ℕ) : Node :=
  numberNode position negative n.integral n.decimal.digits n.decimal.exponent

/-- **A numeral behind its sign** is read to its end. -/
theorem parseNumber?_numeral (hn : n.WellFormed) (hrest : EndsNumber rest) (negative : Bool)
    (start : ℕ) :
    parseNumber? ⟨start, signChars negative ++ n.chars ++ rest⟩
      = some (n.node negative start,
          .ok ⟨start + (signChars negative ++ n.chars).length, rest⟩) := by
  -- The sign is read first, and what is behind it is the same numeral.
  cases negative with
  | false =>
    have hread := parseNumber_numeral hn hrest start start false
    obtain ⟨c, tail, hchars, hc⟩ := hn.exists_chars_eq_cons
    -- Without a sign the numeral starts with a digit.
    have hminus : c ≠ '-' := ne_of_isDigit hc rfl
    show parseNumber? ⟨start, n.chars ++ rest⟩
      = some (n.node false start, .ok ⟨start + n.chars.length, rest⟩)
    rw [Numeral.node, ← hread]
    unfold parseNumber?
    simp [hchars, hc]
  | true =>
    have hread := parseNumber_numeral hn hrest start (start + 1) true
    rw [add_assoc, add_comm 1] at hread
    exact congrArg some hread

end Reading

/-- What a number starts with: a digit or a minus sign. -/
def StartsNumber (text : List Char) : Prop :=
  ∃ c rest, text = c :: rest ∧ (c = '-' ∨ c.isDigit)

theorem StartsNumber.append {text : List Char} (h : StartsNumber text) (rest : List Char) :
    StartsNumber (text ++ rest) := by
  obtain ⟨c, tail, rfl, hc⟩ := h
  exact ⟨c, tail ++ rest, rfl, hc⟩

theorem startsNumber_neg (text : List Char) : StartsNumber ('-' :: text) :=
  ⟨'-', text, rfl, .inl rfl⟩

theorem Numeral.WellFormed.startsNumber {n : Numeral} (hn : n.WellFormed) (negative : Bool) :
    StartsNumber (signChars negative ++ n.chars) := by
  cases negative with
  | false =>
    obtain ⟨c, tail, hchars, hc⟩ := hn.exists_chars_eq_cons
    exact ⟨c, tail, hchars, .inr hc⟩
  | true => exact startsNumber_neg _

/-! ### Integers -/

/-- Only zero is written with a zero in front. -/
theorem eq_zero_of_head?_digitChars {n : ℕ} (h : (digitChars n).head? = some '0') : n = 0 := by
  induction n using Nat.strongRecOn with
  | ind n ih =>
    unfold digitChars at h
    -- By strong induction on the number: its digits begin as those of its tenth do.
    obtain hlt | hge := Nat.lt_or_ge n 10
    · rw [Nat.toDigits_of_lt_base hlt] at h
      interval_cases n <;> first | rfl | cases h
    · rw [Nat.toDigits_of_base_le (by norm_num) hge,
        List.head?_append_of_ne_nil _ Nat.toDigits_ne_nil] at h
      have hzero := ih (n / 10) (by omega) h
      omega

/-- The numeral of a natural number. -/
def Numeral.ofNat (n : ℕ) : Numeral := ⟨digitChars n, [], none⟩

namespace Numeral

variable (n : ℕ)

@[simp] theorem chars_ofNat : (ofNat n).chars = digitChars n := by
  simp [ofNat, chars, fractionChars, exponentChars]

@[simp] theorem integral_ofNat : (ofNat n).integral = true := rfl

@[simp] theorem decimal_ofNat : (ofNat n).decimal = ⟨n, 0⟩ := by
  simp [ofNat, decimal, scale]

/-- The digits of a natural number before the point of a numeral. -/
theorem lead_digitChars (h : (digitChars n).head? = some '0') : (digitChars n).length = 1 := by
  rw [eq_zero_of_head?_digitChars h]
  rfl

theorem wellFormed_ofNat : (ofNat n).WellFormed where
  whole_ne_nil := digitChars_ne_nil n
  isDigit_whole := isDigit_of_mem_digitChars
  lead := lead_digitChars n
  isDigit_fraction _ h := nomatch h
  exponent _ h := nomatch h

end Numeral

/-- **The text of an integer** of 64 bits, signed or not, is a numeral that denotes the integer. -/
theorem exists_numeral_intText {n : ℤ} (hlow : -2 ^ 63 ≤ n) (hhigh : n < 2 ^ 64) :
    ∃ (negative : Bool) (m : Numeral), m.WellFormed ∧ intText n = signChars negative ++ m.chars ∧
      ∀ position, m.node negative position = .int position n := by
  refine ⟨decide (n < 0), .ofNat n.natAbs, Numeral.wellFormed_ofNat n.natAbs, ?_,
    fun position => ?_⟩
  · rw [Numeral.chars_ofNat, intText, signChars]
    by_cases hneg : n < 0 <;> simp [hneg]
  -- An integer with a sign has 63 bits, or is the least one; without a sign it has 64.
  · by_cases hneg : n < 0
    · have hpos : 0 < n.natAbs := by omega
      have hle : n.natAbs ≤ 9223372036854775808 := by omega
      simp [Numeral.node, numberNode, hneg, hpos, hle, abs_of_neg hneg]
    · have hlt : n.natAbs < 18446744073709551616 := by omega
      simp [Numeral.node, numberNode, hneg, hlt, abs_of_nonneg (not_lt.1 hneg)]

/-- **The text of an integer** of 64 bits is read as the integer. -/
theorem parseNumber?_intText {n : ℤ} (hlow : -2 ^ 63 ≤ n) (hhigh : n < 2 ^ 64) {rest : List Char}
    (hrest : EndsNumber rest) (start : ℕ) :
    parseNumber? ⟨start, intText n ++ rest⟩
      = some (.int start n, .ok ⟨start + (intText n).length, rest⟩) := by
  obtain ⟨negative, m, hm, hchars, hnode⟩ := exists_numeral_intText hlow hhigh
  rw [hchars, parseNumber?_numeral hm hrest, hnode]

/-! ### Floats -/

/-- A numeral with a point or an exponent that denotes a given number. -/
structure Numeral.Denotes (n : Numeral) (v : ℚ) : Prop where
  wellFormed : n.WellFormed
  integral : n.integral = false
  value : n.decimal.value = v

/-- Digits with a point among them. -/
theorem exists_numeral_point {whole fraction : List Char} (hne : whole ≠ [])
    (hwhole : ∀ c ∈ whole, c.isDigit) (hlead : whole.head? = some '0' → whole.length = 1)
    (hne' : fraction ≠ []) (hfraction : ∀ c ∈ fraction, c.isDigit) :
    ∃ n : Numeral, whole ++ '.' :: fraction = n.chars ∧
      n.Denotes (Digits.value ⟨digitsValue (whole ++ fraction), -fraction.length⟩) := by
  refine ⟨⟨whole, fraction, none⟩, ?_, ⟨⟨hne, hwhole, hlead, hfraction, ?_⟩, ?_, ?_⟩⟩
  · simp [Numeral.chars, Numeral.fractionChars, Numeral.exponentChars, hne']
  · exact fun _ h => nomatch h
  · simp [Numeral.integral, hne']
  · simp [Numeral.decimal, Numeral.scale]

section Layout

variable {ds : List Char}

/-- Digits with zeros behind them and one more behind the point. -/
theorem exists_numeral_zeros_behind (hne : ds ≠ []) (hdigits : ∀ c ∈ ds, c.isDigit)
    (hlead : ds.head? ≠ some '0') (k : ℕ) :
    ∃ n : Numeral, ds ++ List.replicate k '0' ++ ['.', '0'] = n.chars ∧
      n.Denotes (Digits.value ⟨digitsValue ds, k⟩) := by
  have hlead' : (ds ++ List.replicate k '0').head? ≠ some '0' := by
    rwa [List.head?_append_of_ne_nil _ hne]
  obtain ⟨n, hchars, hn⟩ := exists_numeral_point (List.append_ne_nil_of_left_ne_nil hne _)
    (List.forall_mem_append.2 ⟨hdigits, isDigit_of_mem_zeros⟩) (fun h => absurd h hlead')
    (List.cons_ne_nil '0' []) (isDigit_of_mem_zeros (n := 1))
  refine ⟨n, hchars, ?_⟩
  have hbehind : digitsValue (ds ++ List.replicate k '0' ++ ['0'])
      = digitsValue ds * 10 ^ (k + 1) := by
    rw [List.append_assoc, ← List.replicate_succ', digitsValue_append_zeros]
  -- The zero behind the point is one more digit and one more place.
  have hsame : Digits.value ⟨digitsValue ds * 10 ^ (k + 1), -1⟩
      = Digits.value ⟨digitsValue ds, k⟩ := by
    unfold Digits.value
    rw [zpow_natCast, zpow_neg_one, pow_succ]
    push_cast
    field_simp
  rw [hbehind] at hn
  exact hsame ▸ hn

/-- Digits with the point among them. -/
theorem exists_numeral_point_within (hdigits : ∀ c ∈ ds, c.isDigit)
    (hlead : ds.head? ≠ some '0') {k : ℕ} (hpos : 0 < k) (hlt : k < ds.length) :
    ∃ n : Numeral, ds.take k ++ '.' :: ds.drop k = n.chars ∧
      n.Denotes (Digits.value ⟨digitsValue ds, -(ds.length - k : ℕ)⟩) := by
  -- Neither part is empty, so that there are digits on both sides of the point.
  have htake : ds.take k ≠ [] := List.ne_nil_of_length_pos (by rw [List.length_take]; omega)
  have hdrop : ds.drop k ≠ [] := List.ne_nil_of_length_pos (by rw [List.length_drop]; omega)
  have hlead' : (ds.take k).head? ≠ some '0' := by
    rwa [List.head?_take, if_neg hpos.ne']
  obtain ⟨n, hchars, hn⟩ := exists_numeral_point htake
    (fun c hc => hdigits c (List.mem_of_mem_take hc)) (fun h => absurd h hlead') hdrop
    (fun c hc => hdigits c (List.mem_of_mem_drop hc))
  rw [List.take_append_drop, List.length_drop] at hn
  exact ⟨n, hchars, hn⟩

/-- Digits behind the point, and zeros before them. -/
theorem exists_numeral_point_before (hne : ds ≠ []) (hdigits : ∀ c ∈ ds, c.isDigit) (k : ℕ) :
    ∃ n : Numeral, '0' :: '.' :: List.replicate k '0' ++ ds = n.chars ∧
      n.Denotes (Digits.value ⟨digitsValue ds, -(k + ds.length : ℕ)⟩) := by
  obtain ⟨n, hchars, hn⟩ := exists_numeral_point (List.cons_ne_nil '0' [])
    (isDigit_of_mem_zeros (n := 1)) (fun _ => rfl) (List.append_ne_nil_of_right_ne_nil _ hne)
    (List.forall_mem_append.2 ⟨isDigit_of_mem_zeros (n := k), hdigits⟩)
  have hall : ['0'] ++ (List.replicate k '0' ++ ds) = List.replicate (k + 1) '0' ++ ds := rfl
  rw [hall, digitsValue_zeros_append, List.length_append, List.length_replicate] at hn
  exact ⟨n, hchars, hn⟩

variable {d : Digits}

/-- **Positional text** is a numeral of the same value. Zero must not have zeros behind it. -/
theorem exists_numeral_positionalText (hd : d = ⟨0, 0⟩ ∨ 0 < d.digits) :
    ∃ n : Numeral, positionalText true d = n.chars ∧ n.Denotes d.value := by
  -- Zero has one digit and needs one behind the point.
  obtain rfl | hpos := hd
  · obtain ⟨n, hchars, hn⟩ := exists_numeral_point_before (List.cons_ne_nil '0' [])
      (isDigit_of_mem_zeros (n := 1)) 0
    exact ⟨n, hchars, by simpa [Digits.value, digitsValue] using hn⟩
  have hne := digitChars_ne_nil d.digits
  have hdigits := isDigit_of_mem_digitChars (n := d.digits)
  have hvalue := digitsValue_digitChars d.digits
  -- No digit is wasted on a leading zero.
  have hlead : (digitChars d.digits).head? ≠ some '0' := fun h =>
    hpos.ne' (eq_zero_of_head?_digitChars h)
  unfold positionalText
  dsimp only
  generalize digitChars d.digits = ds at hne hdigits hvalue hlead
  split
  -- All digits stand before the point, with zeros to fill it up.
  · rename_i hexponent
    obtain ⟨k, hk⟩ := Int.eq_ofNat_of_zero_le hexponent
    have hread := exists_numeral_zeros_behind hne hdigits hlead k
    rw [hvalue, ← hk] at hread
    rwa [if_pos rfl, hk, Int.toNat_natCast]
  · rename_i hexponent
    split
    -- The point stands among the digits.
    · rename_i hpoint
      obtain ⟨k, hk⟩ := Int.eq_ofNat_of_zero_le hpoint.le
      have hplaces : (-(ds.length - k : ℕ) : ℤ) = d.exponent := by omega
      have hread := exists_numeral_point_within hdigits hlead (k := k) (by omega) (by omega)
      rwa [hvalue, hplaces, ← Int.toNat_natCast k, ← hk] at hread
    -- The point stands in front of the digits, with zeros to fill it up.
    · rename_i hpoint
      obtain ⟨k, hk⟩ := Int.eq_ofNat_of_zero_le (by omega : 0 ≤ -((ds.length : ℤ) + d.exponent))
      have hplaces : (-(k + ds.length : ℕ) : ℤ) = d.exponent := by
        push_cast
        omega
      have hread := exists_numeral_point_before hne hdigits k
      rwa [hvalue, hplaces, ← Int.toNat_natCast k, ← hk] at hread

/-- **Text with an exponent** is a numeral of the same value. -/
theorem exists_numeral_scientificText (d : Digits) :
    ∃ n : Numeral, scientificText d = n.chars ∧ n.Denotes d.value := by
  have hne := digitChars_ne_nil d.digits
  have hdigits := isDigit_of_mem_digitChars (n := d.digits)
  have hvalue := digitsValue_digitChars d.digits
  unfold scientificText
  dsimp only
  generalize digitChars d.digits = ds at hne hdigits hvalue
  generalize hlead : (ds.length : ℤ) + d.exponent - 1 = lead
  -- The exponent is that of the leading digit.
  let e : Exponent := ⟨'e', [if lead < 0 then '-' else '+'], digitChars lead.natAbs⟩
  have he : e.WellFormed := by
    refine ⟨.inl rfl, .inr ?_, digitChars_ne_nil _, isDigit_of_mem_digitChars⟩
    by_cases hneg : lead < 0 <;> simp [e, hneg]
  have hscale : e.value = lead := by
    by_cases hneg : lead < 0
    · simp [e, Exponent.value, hneg, digitsValue_digitChars, abs_of_neg hneg]
    · simp [e, Exponent.value, hneg, digitsValue_digitChars, abs_of_nonneg (not_lt.1 hneg)]
  refine ⟨⟨ds.take 1, ds.drop 1, some e⟩, ?_, ⟨⟨?_, ?_, ?_, ?_, ?_⟩, ?_, ?_⟩⟩
  · obtain ⟨c, tail, rfl⟩ := List.exists_cons_of_ne_nil hne
    cases tail <;> simp [Numeral.chars, Numeral.fractionChars, Numeral.exponentChars,
      Exponent.chars, e]
  · simpa using hne
  · exact fun c hc => hdigits c (List.mem_of_mem_take hc)
  · obtain ⟨c, tail, rfl⟩ := List.exists_cons_of_ne_nil hne
    simp
  · exact fun c hc => hdigits c (List.mem_of_mem_drop hc)
  · rintro _ ⟨⟩
    exact he
  · simp [Numeral.integral]
  · -- The digits behind the point are as many places as the exponent was moved by.
    have hlen : ds.length ≠ 0 := by simpa using hne
    have hexponent : lead - (ds.drop 1).length = d.exponent := by
      rw [List.length_drop]
      omega
    unfold Numeral.decimal Numeral.scale
    simp only [Option.elim_some, List.take_append_drop, hvalue, hscale, hexponent]

end Layout

/-- The magnitude of a finite float is written as a numeral of the value of its digits. -/
theorem exists_numeral_magnitudeText {x : Float} (h : x.isFinite = true) :
    ∃ n : Numeral, numberLayout.magnitudeText (.ofFloat x) = n.chars ∧
      n.Denotes ((Magnitude.ofFloat x).shortest .even).value := by
  unfold Layout.magnitudeText
  dsimp only
  split
  · exact exists_numeral_positionalText (shortest_eq_zero_or_pos h .even)
  · exact exists_numeral_scientificText _

/-- **The text of a finite float** is a numeral that denotes the float, with the sign of zero. -/
theorem exists_numeral_floatText {x : Float} (h : x.isFinite = true) :
    ∃ (negative : Bool) (n : Numeral), n.WellFormed ∧
      floatText x = signChars negative ++ n.chars ∧
        ∀ position, n.node negative position = .float position x := by
  -- The magnitude is written as a numeral whose nearest float it is, and the sign goes in front.
  obtain ⟨n, hchars, hn⟩ := exists_numeral_magnitudeText h
  obtain ⟨hfinite, hsigned⟩ := signed_nearest_eq h hn.value
  refine ⟨isNegative x, n, hn.wellFormed, ?_, fun position => ?_⟩
  · rw [floatText, if_pos h, toList_text_of_isFinite h, ← hchars, signChars]
    split <;> rfl
  -- A negative zero is not an integer either, for its text ends in a fraction.
  · split at hsigned
    · have hneg : isNegative x = true := ‹_›
      simp [Numeral.node, numberNode, hn.integral, hfinite, hsigned, hneg]
    · have hneg : ¬ isNegative x = true := ‹_›
      simp [Numeral.node, numberNode, hn.integral, hsigned, h, hneg]

end Scoresheet.Json
