import Scoresheet.Proofs.Decimal.RoundTrip
import Scoresheet.Timestamp

/-!
# The text of a point in time is read

A point in time is written with a fixed number of digits for all its parts but the year, which has
more where it needs them and a sign where it has more than four. Each part is read to where the next
one starts, so that the text is read as the point in time that it was written for, in whatever year.

* `number?_padded` — a padded number is read to its end.
* `year?_yearText`, `fraction?_fractionText` — the year and the decimal places of the second.
* `Timestamp.parse?_text` — the text of a point in time is read as the point in time.
-/

namespace Scoresheet.Timestamp

open Decimal

/-! ### Numbers of a fixed width -/

section Padded

variable (width n : ℕ)

theorem isDigit_of_mem_padded {c : Char} (h : c ∈ padded width n) : c.isDigit :=
  (List.mem_append.1 h).elim (isDigit_of_mem_zeros c) (isDigit_of_mem_digitChars c)

theorem padded_ne_nil : padded width n ≠ [] :=
  List.append_ne_nil_of_right_ne_nil _ (digitChars_ne_nil n)

theorem digitsValue_padded : digitsValue (padded width n) = n := by
  unfold padded
  rw [digitsValue_zeros_append, digitsValue_digitChars]

variable {width n}

/-- A number that does not need more digits has the width asked for. -/
theorem length_padded (hwidth : 0 < width) (h : n < 10 ^ width) :
    (padded width n).length = width := by
  have hle : (digitChars n).length ≤ width :=
    (Nat.length_toDigits_le_iff (by norm_num) hwidth).2 h
  unfold padded
  rw [List.length_append, List.length_replicate]
  omega

end Padded

/-! ### Reading parts -/

/-- A text that starts with no blank has none to be cut off. -/
theorem trimStart_cons {c : Char} (hc : Text.isBlank c = false) (rest : List Char) :
    Text.trimStart (c :: rest) = c :: rest := by
  simp [Text.trimStart, hc]

/-- A text that starts with digits has no blank to be cut off. -/
theorem trimStart_digits {run : List Char} (hne : run ≠ []) (hrun : ∀ c ∈ run, c.isDigit)
    (rest : List Char) : Text.trimStart (run ++ rest) = run ++ rest := by
  obtain ⟨c, tail, rfl⟩ := List.exists_cons_of_ne_nil hne
  exact trimStart_cons (Text.isBlank_of_isDigit (hrun c List.mem_cons_self)) _

section Parts

variable {rest : List Char} (hrest : ∀ c ∈ rest.head?, c.isDigit = false)

include hrest in
/-- **A padded number is read to its end,** if it has no more digits than are looked at. -/
theorem number?_padded {width n most : ℕ} (h : (padded width n).length ≤ most) :
    number? most (padded width n ++ rest) = some (n, rest) := by
  have hdigits := fun c => @isDigit_of_mem_padded width n c
  -- The run of digits ends with the number, for what follows it starts with none.
  have hstop : ∀ c ∈ (rest.take (most - (padded width n).length)).head?, c.isDigit = false := by
    rw [List.head?_take]
    split
    · simp
    · exact hrest
  have hspan := spanDigits_append hdigits hstop
  have hrun : ((padded width n ++ rest).take most).takeWhile Char.isDigit = padded width n := by
    rw [List.take_append, List.take_of_length_le h]
    exact congrArg Prod.fst hspan
  unfold number?
  rw [trimStart_digits (padded_ne_nil width n) hdigits]
  simp only [hrun, padded_ne_nil, if_false, digitsValue_padded, List.drop_left]

theorem expect?_cons {c : Char} (hc : Text.isBlank c = false) (rest : List Char) :
    expect? c (c :: rest) = some rest := by
  simp [expect?, trimStart_cons hc]

/-- A padded number starts with a digit. -/
theorem exists_padded_eq_cons (width n : ℕ) :
    ∃ c tail, padded width n = c :: tail ∧ c.isDigit := by
  obtain ⟨c, tail, hpadded⟩ := List.exists_cons_of_ne_nil (padded_ne_nil width n)
  exact ⟨c, tail, hpadded, isDigit_of_mem_padded width n (hpadded ▸ List.mem_cons_self)⟩

include hrest in
/-- A number behind a sign may have any number of digits. -/
theorem number?_signed (width n : ℕ) :
    ((padded width n ++ rest).head?.any Char.isDigit) = true ∧
      number? (padded width n ++ rest).length (padded width n ++ rest) = some (n, rest) := by
  obtain ⟨c, tail, hpadded, hc⟩ := exists_padded_eq_cons width n
  refine ⟨by simp [hpadded, hc], number?_padded hrest ?_⟩
  rw [List.length_append]
  omega

include hrest in
/-- **The year** is read to its end, with its sign if it has one. -/
theorem year?_yearText (year : ℤ) : year? (yearText year ++ rest) = some (year, rest) := by
  unfold yearText
  split
  -- A year of four digits is written without a sign.
  · rename_i hrange
    have hread := number?_padded hrest
      (length_padded (by norm_num) (by omega : year.toNat < 10 ^ 4)).le
    have hyear : (year.toNat : ℤ) = year := by omega
    obtain ⟨c, tail, hpadded, hc⟩ := exists_padded_eq_cons 4 year.toNat
    have hminus : c ≠ '-' := ne_of_isDigit hc rfl
    have hplus : c ≠ '+' := ne_of_isDigit hc rfl
    rw [hpadded, List.cons_append] at hread
    rw [hpadded, List.cons_append]
    unfold year?
    rw [trimStart_cons (Text.isBlank_of_isDigit hc)]
    split
    · exact absurd (List.cons.inj ‹_›).1 hminus
    · exact absurd (List.cons.inj ‹_›).1 hplus
    · rw [hread]
      simp [hyear]
  -- Any other year has its sign in front.
  · obtain ⟨hdigit, hread⟩ := number?_signed hrest 4 year.natAbs
    rw [List.cons_append]
    generalize padded 4 year.natAbs ++ rest = body at hdigit hread
    unfold year?
    -- The sign is a minus or a plus, and either way the digits are those of the size.
    by_cases hneg : year < 0
    · rw [if_pos hneg, trimStart_cons (by decide)]
      simp [hdigit, hread, abs_of_neg hneg]
    · rw [if_neg hneg, trimStart_cons (by decide)]
      simp [hdigit, hread, abs_of_nonneg (not_lt.1 hneg)]

/-- A fraction of so many places. -/
theorem fraction?_padded (hrest : ∀ c ∈ rest.head?, c.isDigit = false) {places n : ℕ}
    (hpos : 0 < places) (hplaces : places ≤ 9) (hn : n < 10 ^ places) :
    fraction? ('.' :: padded places n ++ rest) = some (n * 10 ^ (9 - places), rest) := by
  have hlength := length_padded hpos hn
  have hspan := spanDigits_append (fun c => @isDigit_of_mem_padded places n c) hrest
  have hkept : (padded places n).take 9 = padded places n :=
    List.take_of_length_le (hlength.trans_le hplaces)
  unfold fraction?
  simp [hspan, padded_ne_nil, hkept, hlength, digitsValue_padded]

include hrest in
/-- **The decimal places of a second** are read as its nanoseconds. -/
theorem fraction?_fractionText {n : ℕ} (hn : n < 1000000000) (hpoint : rest.head? ≠ some '.') :
    fraction? (fractionText n ++ rest) = some (n, rest) := by
  unfold fractionText
  split
  -- No fraction is written for a whole second.
  · rename_i hzero
    rw [List.nil_append, hzero]
    unfold fraction?
    split
    · exact absurd rfl hpoint
    · rfl
  split
  -- Three digits, six or nine, whichever is the least number that says it all.
  · rename_i hmillis
    rw [fraction?_padded hrest (by norm_num) (by norm_num) (by omega)]
    congr 2
    omega
  split
  · rename_i hmicros
    rw [fraction?_padded hrest (by norm_num) (by norm_num) (by omega)]
    congr 2
    omega
  · rw [fraction?_padded hrest (by norm_num) (by norm_num) (by omega), Nat.sub_self, pow_zero,
      mul_one]

end Parts

/-! ### Points in time -/

theorem date_ofParts?_parts (d : Date) :
    Date.ofParts? d.year d.month d.day = some d := by
  unfold Date.ofParts?
  simp [d.year_range, d.month_range, d.day_range]

variable (t : Timestamp)

theorem ofParts?_parts :
    ofParts? t.date t.hour t.minute t.second t.nanosecond = some t := by
  unfold ofParts?
  simp [t.hour_lt, t.minute_lt, t.second_le, t.nanosecond_lt]

/-- No minutes earlier is the same point in time. -/
theorem earlierBy?_zero : t.earlierBy? 0 = some t := by
  have hhour := t.hour_lt
  have hminute := t.minute_lt
  have htotal : ((t.hour * 60 + t.minute - 0 : ℤ) % 1440).toNat = t.hour * 60 + t.minute := by
    omega
  have hhours : (t.hour * 60 + t.minute) / 60 = t.hour := by omega
  have hminutes : (t.hour * 60 + t.minute) % 60 = t.minute := by omega
  have hlow : ¬ (t.hour * 60 + t.minute - 0 : ℤ) < 0 := by omega
  have hhigh : ¬ 1440 ≤ (t.hour * 60 + t.minute - 0 : ℤ) := by omega
  unfold earlierBy?
  simp only [htotal, hhours, hminutes, hlow, hhigh, if_false]
  exact t.ofParts?_parts

/-- A month has two digits of days at most. -/
theorem day_lt (d : Date) : d.day < 100 := by
  have hle : daysInMonth d.year d.month ≤ 31 := by
    unfold daysInMonth
    split_ifs <;> omega
  have hrange := d.day_range
  omega

/-- Behind the second there is a point or the letter for no offset. -/
theorem head?_fractionText (n : ℕ) :
    ∀ c ∈ (fractionText n ++ ['Z']).head?, c.isDigit = false := by
  unfold fractionText
  split_ifs <;> simp

/-- **The text of a point in time** is read as the point in time. -/
theorem parse?_text : parse? t.text = some t := by
  have hmonth := t.date.month_range
  have hday := day_lt t.date
  have hhour := t.hour_lt
  have hminute := t.minute_lt
  have hsecond := t.second_le
  have htwo : ∀ {n : ℕ} {rest : List Char}, n < 100 → (∀ c ∈ rest.head?, c.isDigit = false) →
      number? 2 (padded 2 n ++ rest) = some (n, rest) := fun hn hrest =>
    number?_padded hrest (length_padded (by norm_num) hn).le
  have htext : t.text.toList = yearText t.date.year ++ '-' :: (padded 2 t.date.month ++
      '-' :: (padded 2 t.date.day ++ 'T' :: (padded 2 t.hour ++ ':' :: (padded 2 t.minute ++
        ':' :: (padded 2 t.second ++ (fractionText t.nanosecond ++ ['Z'])))))) := by
    simp [text, dateChars, timeChars]
  unfold parse?
  rw [htext]
  -- Each part is read to where the next one starts.
  refine Option.bind_eq_some_iff.2 ⟨_, year?_yearText (by simp) _, ?_⟩
  refine Option.bind_eq_some_iff.2 ⟨_, expect?_cons (by decide) _, ?_⟩
  refine Option.bind_eq_some_iff.2 ⟨_, htwo (by omega) (by simp), ?_⟩
  refine Option.bind_eq_some_iff.2 ⟨_, expect?_cons (by decide) _, ?_⟩
  refine Option.bind_eq_some_iff.2 ⟨_, htwo hday (by simp), ?_⟩
  refine Option.bind_eq_some_iff.2 ⟨_, rfl, ?_⟩
  refine Option.bind_eq_some_iff.2 ⟨_, htwo (by omega) (by simp), ?_⟩
  refine Option.bind_eq_some_iff.2 ⟨_, expect?_cons (by decide) _, ?_⟩
  refine Option.bind_eq_some_iff.2 ⟨_, htwo (by omega) (by simp), ?_⟩
  refine Option.bind_eq_some_iff.2 ⟨_, expect?_cons (by decide) _, ?_⟩
  refine Option.bind_eq_some_iff.2 ⟨_, htwo (by omega) (head?_fractionText _), ?_⟩
  refine Option.bind_eq_some_iff.2
    ⟨_, fraction?_fractionText (by simp) t.nanosecond_lt (by simp), ?_⟩
  -- The letter stands for no offset, and nothing follows it.
  refine Option.bind_eq_some_iff.2 ⟨(0, []), by decide, ?_⟩
  refine Option.bind_eq_some_iff.2 ⟨(), by decide, ?_⟩
  refine Option.bind_eq_some_iff.2 ⟨_, date_ofParts?_parts t.date, ?_⟩
  refine Option.bind_eq_some_iff.2 ⟨_, t.ofParts?_parts, ?_⟩
  exact t.earlierBy?_zero

end Scoresheet.Timestamp
