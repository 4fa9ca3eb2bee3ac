import Scoresheet.Proofs.Json.Numerals

/-!
# The text of a string is read

Inside a string a character stands for itself or is escaped, in one of several ways, so that the
text of a string has no quote but the last. The reader undoes one escape in each of its steps.

* `CharWritten`, `scanString_of_written` — the texts of a character, each read in one step.
* `StringWritten`, `StringWritten.exists_parseString` — the texts of a string, each read as the
  string.
* `stringWritten_stringText` — the text that is written here is one of them.
* `Key.Names`, `Key.Spells` — a key is read as a name, and as the integer that it spells.
* `Key.spells_ofScanned`, `Key.spells_ofText` — the keys of a text and those of a value.
-/

namespace Scoresheet.Json

/-! ### Escapes -/

/-- **A hexadecimal digit** has the number for its value that it was written for. -/
theorem hexValue?_hexDigit {n : ℕ} (h : n < 16) : hexValue? (hexDigit n) = some n := by
  interval_cases n <;> rfl

/-- The four digits that a number below 256 is escaped by. -/
theorem hexQuad?_hexDigits {n : ℕ} (h : n < 256) (rest : List Char) :
    hexQuad? ('0' :: '0' :: hexDigit (n / 16) :: hexDigit (n % 16) :: rest) = some n := by
  have hzero : hexValue? '0' = some 0 := rfl
  have hhigh := hexValue?_hexDigit (by omega : n / 16 < 16)
  have hlow := hexValue?_hexDigit (by omega : n % 16 < 16)
  simp only [hexQuad?, hzero, hhigh, hlow]
  show some (((0 * 16 + 0) * 16 + n / 16) * 16 + n % 16) = some n
  congr 1
  omega

/-- A character by its number. -/
theorem eq_ofNat_of_toNat_eq {c : Char} {n : ℕ} (h : c.toNat = n) : c = Char.ofNat n := by
  rw [← h, Char.ofNat_toNat]

/-- **The texts of a character** inside a string: itself, unless it is a quote, a backslash or a
control, an escape by a letter, its number in hexadecimal, or the two halves of a surrogate pair. -/
inductive CharWritten (c : Char) : List Char → Prop
  | plain (hquote : c ≠ '"') (hslash : c ≠ '\\') (hcontrol : 32 ≤ c.toNat) : CharWritten c [c]
  | letter {l : Char} (h : escape? l = some c) : CharWritten c ['\\', l]
  | number {digits : List Char} (hlength : digits.length = 4)
    (h : hexQuad? digits = some c.toNat) : CharWritten c ('\\' :: 'u' :: digits)
  | pair {first second : List Char} {m n : ℕ} (hlength : first.length = 4)
    (hlength' : second.length = 4) (hm : hexQuad? first = some m) (hn : hexQuad? second = some n)
    (hfirst : 0xD800 ≤ m ∧ m ≤ 0xDBFF) (hsecond : 0xDC00 ≤ n ∧ n ≤ 0xDFFF)
    (h : c.toNat = 0x10000 + (m - 0xD800) * 0x400 + (n - 0xDC00)) :
    CharWritten c ('\\' :: 'u' :: first ++ '\\' :: 'u' :: second)

/-- Four digits are read without what follows them. -/
theorem hexQuad?_append {digits : List Char} (hlength : digits.length = 4) (rest : List Char) :
    hexQuad? (digits ++ rest) = hexQuad? digits := by
  obtain ⟨a, b, c, d, rfl⟩ := List.length_eq_four.1 hlength
  rfl

/-- No character is half of a surrogate pair. -/
theorem not_surrogate (c : Char) : ¬ (0xD800 ≤ c.toNat ∧ c.toNat ≤ 0xDFFF) := by
  have hvalid : c.toNat < 0xD800 ∨ 0xDFFF < c.toNat ∧ c.toNat < 0x110000 := c.valid
  omega

/-- **One step of the reader** reads one character, however it is written. -/
theorem scanString_of_written {c : Char} {text : List Char} (h : CharWritten c text)
    (read : List Char) (position fuel : ℕ) (rest : List Char) :
    scanString (.ok read) position (fuel + 1) (text ++ rest)
      = scanString (.ok (c :: read)) (position + text.length) fuel rest := by
  -- By the way in which the character is written: as it is, with a letter, with a number, or with
  -- two.
  cases h with
  | plain hquote hslash hcontrol =>
    conv_lhs => unfold scanString
    simp [hquote, hslash, not_lt.2 hcontrol, Except.map]
  | @letter l h =>
    -- The letter of a number is none of the letters for characters.
    have hu : l ≠ 'u' := by
      rintro rfl
      cases h
    conv_lhs => unfold scanString
    simp [h, Except.map]
  | @number digits hlength h =>
    have hquad : hexQuad? (digits ++ rest) = some c.toNat := by rw [hexQuad?_append hlength, h]
    -- A character is not half of a pair, so that the number stands for itself.
    have hsecond : ¬ (0xDC00 ≤ c.toNat ∧ c.toNat ≤ 0xDFFF) := by have := not_surrogate c; omega
    have hfirst : ¬ (0xD800 ≤ c.toNat ∧ c.toNat ≤ 0xDBFF) := by have := not_surrogate c; omega
    have hdrop : (digits ++ rest).drop 4 = rest := by rw [← hlength, List.drop_left]
    conv_lhs => unfold scanString
    simp [hquad, hsecond, hfirst, hdrop, hlength, Except.map]
  | @pair first second m n hlength hlength' hm hn hfirst hsecond h =>
    have hquad : hexQuad? (first ++ '\\' :: 'u' :: (second ++ rest)) = some m := by
      rw [hexQuad?_append hlength, hm]
    have hdrop : (first ++ '\\' :: 'u' :: (second ++ rest)).drop 4
        -- The digits of both halves are taken off the text, and what is behind them is the rest.
        = '\\' :: 'u' :: (second ++ rest) := by rw [← hlength, List.drop_left]
    have hdrop' : (first ++ '\\' :: 'u' :: (second ++ rest)).drop 10 = rest := by
      rw [show 10 = 4 + (2 + second.length) by omega, ← List.drop_drop, hdrop, ← List.drop_drop]
      exact List.drop_left
    have hhalf : secondHalf ⟨position + 6, '\\' :: 'u' :: (second ++ rest)⟩ = .ok n := by
      simp [secondHalf, hexQuad?_append hlength', hn, hsecond]
    have hfirst' : ¬ (0xDC00 ≤ m ∧ m ≤ 0xDFFF) := by omega
    -- The two halves make up the number of the character.
    have hchar : Char.ofNat (0x10000 + (m - 0xD800) * 0x400 + (n - 0xDC00)) = c := by
      rw [← h, Char.ofNat_toNat]
    have hlen : position + ('\\' :: 'u' :: first ++ '\\' :: 'u' :: second).length
        = position + 12 := by
      simp [hlength, hlength']
    rw [hlen]
    simp only [List.append_assoc, List.cons_append]
    conv_lhs => unfold scanString
    simp [hquad, hdrop, hdrop', hhalf, hfirst, hfirst', hchar, Except.map]

/-- The text of a character that is written here is one of its texts. -/
theorem charWritten_escapeChar (c : Char) : CharWritten c (escapeChar c) := by
  unfold escapeChar
  split_ifs with hquote hslash hline hreturn htab hback hfeed hcontrol
  -- The two characters that delimit, then the escapes with a letter, then the other controls.
  · rw [hquote]; exact .letter rfl
  · rw [hslash]; exact .letter rfl
  · rw [hline]; exact .letter rfl
  · rw [hreturn]; exact .letter rfl
  · rw [htab]; exact .letter rfl
  · rw [eq_ofNat_of_toNat_eq hback]; exact .letter rfl
  · rw [eq_ofNat_of_toNat_eq hfeed]; exact .letter rfl
  · exact .number rfl (hexQuad?_hexDigits (by omega) [])
  · exact .plain hquote hslash (not_lt.1 hcontrol)

/-! ### Strings -/

/-- **The texts of a string:** the texts of its characters one after the other, in quotes. -/
def StringWritten (s : String) (text : List Char) : Prop :=
  ∃ pieces, List.Forall₂ CharWritten s.toList pieces ∧ text = '"' :: pieces.flatten ++ ['"']

/-- The characters of a string and its quote. -/
theorem scanString_flatten {cs : List Char} {pieces : List (List Char)}
    (h : List.Forall₂ CharWritten cs pieces) {read : List Char} {position fuel : ℕ}
    {rest : List Char} (hfuel : cs.length < fuel) :
    scanString (.ok read) position fuel (pieces.flatten ++ '"' :: rest)
      = ⟨.ok (read.reverse ++ cs), .ok ⟨position + pieces.flatten.length + 1, rest⟩⟩ := by
  -- By induction on the characters. One unit of fuel is spent on each, and one on the quotation
  -- mark.
  induction h generalizing read position fuel with
  | nil =>
    obtain ⟨fuel, rfl⟩ := Nat.exists_eq_succ_of_ne_zero hfuel.ne_bot
    simp [scanString, Except.map]
  | @cons c piece cs pieces hc _ ih =>
    obtain ⟨fuel, rfl⟩ := Nat.exists_eq_succ_of_ne_zero hfuel.ne_bot
    rw [List.flatten_cons, List.append_assoc, scanString_of_written hc, ih (by simpa using hfuel)]
    simp [add_assoc]

/-- A character is written with a character at least. -/
theorem CharWritten.ne_nil {c : Char} {text : List Char} (h : CharWritten c text) : text ≠ [] := by
  cases h <;> simp

theorem length_le_length_flatten {cs : List Char} {pieces : List (List Char)}
    (h : List.Forall₂ CharWritten cs pieces) : cs.length ≤ pieces.flatten.length := by
  induction h with
  | nil => exact le_rfl
  | cons hc _ ih =>
    have hpos := List.length_pos_iff.2 hc.ne_nil
    rw [List.flatten_cons, List.length_append, List.length_cons]
    omega

/-- **A text of a string** is read as the string, from behind its first quote. -/
theorem StringWritten.exists_parseString {s : String} {text : List Char}
    (h : StringWritten s text) : ∃ tail, text = '"' :: tail ∧ ∀ (position : ℕ) (rest : List Char),
      parseString ⟨position, tail ++ rest⟩
        = ⟨.ok s.toList, .ok ⟨position + tail.length, rest⟩⟩ := by
  obtain ⟨pieces, hpieces, rfl⟩ := h
  refine ⟨pieces.flatten ++ ['"'], rfl, fun position rest => ?_⟩
  -- Every piece has a character at least, so that the text has as many as there are pieces.
  have hle := length_le_length_flatten hpieces
  have hfuel : s.toList.length < (pieces.flatten ++ '"' :: rest).length + 1 := by
    rw [List.length_append]
    omega
  unfold parseString
  rw [List.append_assoc, List.singleton_append, scanString_flatten hpieces hfuel]
  simp [add_assoc]

/-- The text of a string behind its first quote. -/
def stringTail (s : String) : List Char :=
  s.toList.flatMap escapeChar ++ ['"']

theorem stringText_eq (s : String) : stringText s = '"' :: stringTail s := rfl

/-- The text of a string that is written here is one of its texts. -/
theorem stringWritten_stringText (s : String) : StringWritten s (stringText s) := by
  refine ⟨s.toList.map escapeChar, List.forall₂_map_right_iff.2 ?_, ?_⟩
  · exact List.forall₂_same.2 fun c _ => charWritten_escapeChar c
  · rw [stringText, List.flatMap_def]

/-- **The text of a string** is read as the string. -/
theorem parseString_stringTail (s : String) (position : ℕ) (rest : List Char) :
    parseString ⟨position, stringTail s ++ rest⟩
      = ⟨.ok s.toList, .ok ⟨position + (stringTail s).length, rest⟩⟩ := by
  obtain ⟨tail, htail, hread⟩ := (stringWritten_stringText s).exists_parseString
  obtain rfl : stringTail s = tail := (List.cons.inj htail).2
  exact hread position rest

/-! ### Keys -/

/-- A key is read as a name by those who take it for a key. -/
def Key.Names (key : Key) (name : String) : Prop :=
  key.text = .ok name

/-- **A key spells a name:** it is read as the name by those who take it for a key or for a value,
and as an integer by those who take it for one, if the name is the text of one. -/
structure Key.Spells (key : Key) (name : String) : Prop where
  text : key.text = .ok name
  word : key.word = .ok name
  integer : ∀ n : ℤ, -2 ^ 63 ≤ n → n < 2 ^ 63 → name.toList = intText n → key.integer = .ok n

/-- A digit is not escaped, nor is a minus sign. -/
theorem escapeChar_of_mem_intText {n : ℤ} {c : Char} (h : c ∈ intText n) : escapeChar c = [c] := by
  -- An integer is written with digits and a minus, and neither is escaped.
  have hc : c = '-' ∨ c.isDigit := by
    unfold intText at h
    split at h
    · exact (List.mem_cons.1 h).imp_right (Decimal.isDigit_of_mem_digitChars c)
    · exact .inr (Decimal.isDigit_of_mem_digitChars c h)
  obtain rfl | hdigit := hc
  · rfl
  · obtain ⟨hlow, hhigh⟩ := Char.isDigit_iff_toNat.1 hdigit
    -- The characters that are escaped lie below the digits, or are others.
    change 48 ≤ c.toNat at hlow
    unfold escapeChar
    rw [if_neg (Decimal.ne_of_isDigit hdigit rfl), if_neg (Decimal.ne_of_isDigit hdigit rfl),
      if_neg (Decimal.ne_of_isDigit hdigit rfl), if_neg (Decimal.ne_of_isDigit hdigit rfl),
      if_neg (Decimal.ne_of_isDigit hdigit rfl), if_neg (by omega), if_neg (by omega),
      if_neg (by omega)]

theorem flatMap_escapeChar_intText (n : ℤ) : (intText n).flatMap escapeChar = intText n := by
  calc (intText n).flatMap escapeChar = (intText n).flatMap fun c => [c] :=
        List.flatMap_congr fun _ => escapeChar_of_mem_intText
    _ = intText n := List.flatMap_singleton' _

theorem keyInteger_intText (ends : List Char → Bool) {n : ℤ} (hlow : -2 ^ 63 ≤ n)
    (hhigh : n < 2 ^ 63) {rest : List Char} (hrest : EndsNumber rest) (hends : ends rest = true)
    (start : ℕ) :
    keyInteger ends ⟨start, intText n ++ rest⟩ = .ok n := by
  unfold keyInteger
  rw [parseNumber?_intText hlow (by omega) hrest]
  have hrange : ¬ (n < -9223372036854775808 ∨ 9223372036854775807 < n) := by omega
  simp only [hrange, if_false, hends, if_true]

/-- **The key that a string of a text is** spells the string. -/
theorem Key.spells_ofScanned (name : String) (position : ℕ) (rest : List Char) :
    (Key.ofScanned ⟨position, stringText name ++ rest⟩
      (parseString ⟨position + 1, stringTail name ++ rest⟩)).Spells name := by
  rw [parseString_stringTail]
  refine ⟨?_, ?_, fun n hlow hhigh hname => ?_⟩
  · simp [Key.ofScanned, Except.map]
  · simp [Key.ofScanned, Except.map]
  -- The name of a number has nothing to be unescaped, so that the reader finds its digits in the
  -- text.
  · have hchars : stringText name ++ rest = '"' :: (intText n ++ '"' :: rest) := by
      rw [stringText_eq, stringTail, hname, flatMap_escapeChar_intText]
      simp
    have hends : EndsNumber ('"' :: rest) := endsNumber_cons.2 (by decide)
    rw [hchars]
    exact keyInteger_intText (·.head? == some '"') hlow hhigh hends rfl _

/-- **The key of a value** spells its text. -/
theorem Key.spells_ofText (position : ℕ) (name : String) :
    (Key.ofText position name).Spells name := by
  refine ⟨rfl, rfl, fun n hlow hhigh hname => ?_⟩
  have hends : EndsNumber [] := fun _ h => nomatch h
  have hread := keyInteger_intText List.isEmpty hlow hhigh hends rfl 0
  rw [List.append_nil] at hread
  simp [Key.ofText, hname, hread, Except.mapError]

end Scoresheet.Json
