import Scoresheet.Proofs.Basic
import Scoresheet.Proofs.Json.Strings
import Scoresheet.Proofs.Text.Bytes
import Scoresheet.Signing.Hex

/-!
# Hexadecimal digits are read back

A signature is bytes, and what an envelope keeps of it is a text of digits. The digits of bytes
denote the bytes, in either case of their letters, and no other text does.

* `Hex.decode_encode` — the digits of bytes denote the bytes.
* `Hex.decode_eq_ok_iff` — which texts denote bytes.
* `Hex.Malformed`, `Hex.decode_eq_error_iff` — which texts denote none, and what is wrong with them.
-/

namespace Scoresheet

namespace Hex

/-! ### Digits -/

theorem toNat_hexDigit_lt {n : ℕ} (h : n < 16) : (Json.hexDigit n).toNat < 128 := by
  interval_cases n <;> decide

/-- **A digit** has the number for its value that it was written for. -/
theorem digit_hexDigit {n : ℕ} (h : n < 16) (index : ℕ) :
    digit index (UInt8.ofNat (Json.hexDigit n).toNat) = .ok n := by
  have hbyte : (UInt8.ofNat (Json.hexDigit n).toNat).toNat = (Json.hexDigit n).toNat :=
    UInt8.toNat_ofNat_of_lt' ((toNat_hexDigit_lt h).trans (by decide))
  rw [digit, hbyte, Char.ofNat_toNat, Json.hexValue?_hexDigit h]

/-- The bytes of the digits of bytes. -/
def digitBytes (bytes : List UInt8) : List UInt8 :=
  bytes.flatMap fun b => [UInt8.ofNat (Json.hexDigit (b.toNat / 16)).toNat,
    UInt8.ofNat (Json.hexDigit (b.toNat % 16)).toNat]

theorem length_digitBytes (bytes : List UInt8) : (digitBytes bytes).length = 2 * bytes.length := by
  simp [digitBytes, List.length_flatMap, Nat.mul_comm]

theorem toNat_lt_of_mem_encode {bytes : List UInt8} {c : Char} (hc : c ∈ (encode bytes).toList) :
    c.toNat < 128 := by
  rw [encode, String.toList_ofList] at hc
  obtain ⟨b, -, hc⟩ := List.mem_flatMap.1 hc
  have hb := b.toNat_lt
  obtain rfl | hc := List.mem_cons.1 hc
  · exact toNat_hexDigit_lt (by omega)
  · rw [List.mem_singleton.1 hc]
    exact toNat_hexDigit_lt (by omega)

theorem length_encode (bytes : List UInt8) : (encode bytes).toList.length = 2 * bytes.length := by
  simp [encode, List.length_flatMap, Nat.mul_comm]

theorem toList_toUTF8_encode (bytes : List UInt8) :
    (encode bytes).toUTF8.toList = digitBytes bytes := by
  have hdigits : ∀ c ∈ (encode bytes).toList, c.toNat < 128 := fun _ => toNat_lt_of_mem_encode
  rw [encode, String.toList_ofList] at hdigits
  rw [encode, toList_toUTF8_ofList hdigits, List.map_flatMap]
  rfl

theorem decodeFrom_digitBytes (bytes : List UInt8) (index : ℕ) :
    decodeFrom index (digitBytes bytes) = .ok bytes := by
  -- By induction on the bytes, of which each has two digits.
  induction bytes generalizing index with
  | nil => rfl
  | cons b rest ih =>
    have hb := b.toNat_lt
    have hhigh := digit_hexDigit (by omega : b.toNat / 16 < 16) index
    have hlow := digit_hexDigit (by omega : b.toNat % 16 < 16) (index + 1)
    -- The two digits make up the byte again.
    have hbyte : UInt8.ofNat (16 * (b.toNat / 16) + b.toNat % 16) = b := by
      rw [Nat.div_add_mod, UInt8.ofNat_toNat]
    have hrest : decodeFrom (index + 2) (digitBytes rest) = .ok rest := ih (index + 2)
    show decodeFrom index (_ :: _ :: digitBytes rest) = _
    simp only [decodeFrom, hhigh, hlow, hrest, hbyte, bind, Except.bind, pure, Except.pure]

/-- **The digits of bytes** denote the bytes. -/
theorem decode_encode (bytes : List UInt8) : decode (encode bytes) = .ok bytes := by
  have heven : ¬ (digitBytes bytes).length % 2 = 1 := by
    rw [length_digitBytes]
    omega
  unfold decode
  simp only [toList_toUTF8_encode, if_neg heven, decodeFrom_digitBytes]

/-! ### Texts that denote bytes, and texts that do not -/

/-- Whether a byte is a hexadecimal digit, in either case. -/
def isDigit (byte : UInt8) : Bool :=
  0x30 ≤ byte && byte ≤ 0x39 || 0x41 ≤ byte && byte ≤ 0x46 || 0x61 ≤ byte && byte ≤ 0x66

theorem isSome_hexValue? (byte : UInt8) :
    (Json.hexValue? (Char.ofNat byte.toNat)).isSome = isDigit byte := by
  obtain ⟨⟨n⟩⟩ := byte
  revert n
  decide +kernel

theorem lt_of_isDigit {byte : UInt8} (h : isDigit byte = true) : byte.toNat < 128 := by
  simp only [isDigit, Bool.or_eq_true, Bool.and_eq_true, decide_eq_true_eq,
    UInt8.le_iff_toNat_le] at h
  have : UInt8.toNat 0x39 = 0x39 := rfl
  have : UInt8.toNat 0x46 = 0x46 := rfl
  have : UInt8.toNat 0x66 = 0x66 := rfl
  omega

/-- A digit that is none is named with its place. -/
theorem digit_eq_error_iff {index : ℕ} {byte : UInt8} {fault : Fault} :
    digit index byte = .error fault ↔ isDigit byte = false ∧ fault = .notADigit byte index := by
  rw [← isSome_hexValue?, digit]
  cases Json.hexValue? (Char.ofNat byte.toNat) <;> simp [eq_comm]

/-- A character has the number for its value for which it is written, in either case. -/
theorem digit_eq_ok_iff {c : Char} (h : c.toNat < 128) {index n : ℕ} :
    digit index (UInt8.ofNat c.toNat) = .ok n ↔ n < 16 ∧ c.toLower = Json.hexDigit n := by
  have hbyte : (UInt8.ofNat c.toNat).toNat = c.toNat :=
    UInt8.toNat_ofNat_of_lt' (h.trans (by decide))
  have hvalue : digit index (UInt8.ofNat c.toNat) = .ok n ↔ Json.hexValue? c = some n := by
    rw [digit, hbyte, Char.ofNat_toNat]
    cases Json.hexValue? c <;> simp
  -- The digits are 128 characters at most, and each is looked at.
  have hlt : ∀ i : Fin 128, ∀ m ∈ Json.hexValue? (Char.ofNat i), m < 16 := by decide +kernel
  have hlower : ∀ i : Fin 128, ∀ m : Fin 16, Json.hexValue? (Char.ofNat i) = some m.val ↔
      (Char.ofNat i).toLower = Json.hexDigit m := by decide +kernel
  have hc : Char.ofNat (⟨c.toNat, h⟩ : Fin 128) = c := Char.ofNat_toNat c
  rw [hvalue]
  constructor
  · intro hsome
    have hn : n < 16 := hlt ⟨c.toNat, h⟩ n (by rw [hc]; exact hsome)
    refine ⟨hn, ?_⟩
    have := (hlower ⟨c.toNat, h⟩ ⟨n, hn⟩).1
    rw [hc] at this
    exact this hsome
  · rintro ⟨hn, hdigit⟩
    have := (hlower ⟨c.toNat, h⟩ ⟨n, hn⟩).2
    rw [hc] at this
    exact this hdigit

theorem exists_digit (index : ℕ) {byte : UInt8} (h : isDigit byte = true) :
    ∃ n, digit index byte = .ok n := by
  cases hdigit : digit index byte with
  | ok n => exact ⟨n, rfl⟩
  | error fault =>
    rw [(digit_eq_error_iff.1 hdigit).1] at h
    cases h

/-- The first byte that is no digit, with its place, the first byte having the index given. -/
def firstStray? (index : ℕ) (text : List UInt8) : Option (UInt8 × ℕ) :=
  (text.zipIdx index).find? fun e => !isDigit e.1

@[simp] theorem firstStray?_nil (index : ℕ) : firstStray? index [] = none := rfl

theorem firstStray?_cons_of_digit {byte : UInt8} (h : isDigit byte = true) (index : ℕ)
    (rest : List UInt8) : firstStray? index (byte :: rest) = firstStray? (index + 1) rest := by
  simp [firstStray?, List.zipIdx_cons, h]

theorem firstStray?_cons_of_stray {byte : UInt8} (h : isDigit byte = false) (index : ℕ)
    (rest : List UInt8) : firstStray? index (byte :: rest) = some (byte, index) := by
  simp [firstStray?, List.zipIdx_cons, h]

/-- **What stops the reading of digits** is the first byte that is none. -/
theorem decodeFrom_eq_error_iff {fault : Fault} : ∀ (index : ℕ) (text : List UInt8),
    text.length % 2 = 0 → (decodeFrom index text = .error fault ↔
      ∃ byte i, firstStray? index text = some (byte, i) ∧ fault = .notADigit byte i)
  | index, [], _ => by simp [decodeFrom]
  | index, [_], heven => by simp at heven
  | index, a :: b :: rest, heven => by
    -- The text has an even length, so that the bytes come in pairs.
    have heven' : rest.length % 2 = 0 := by
      simp only [List.length_cons] at heven
      omega
    have ih : decodeFrom (index + 2) rest = .error fault ↔ _ :=
      decodeFrom_eq_error_iff (index + 2) rest heven'
    -- The first byte that is no digit is either of the two, or it is further on.
    cases ha : isDigit a with
    | false =>
      have herror : digit index a = .error (.notADigit a index) := digit_eq_error_iff.2 ⟨ha, rfl⟩
      have hread : decodeFrom index (a :: b :: rest) = .error (.notADigit a index) := by
        simp only [decodeFrom, herror, bind, Except.bind]
      simp [hread, firstStray?_cons_of_stray ha, eq_comm]
    | true =>
      obtain ⟨high, hhigh⟩ := exists_digit index ha
      rw [firstStray?_cons_of_digit ha]
      cases hb : isDigit b with
      | false =>
        have herror : digit (index + 1) b = .error (.notADigit b (index + 1)) :=
          digit_eq_error_iff.2 ⟨hb, rfl⟩
        have hread : decodeFrom index (a :: b :: rest) = .error (.notADigit b (index + 1)) := by
          simp only [decodeFrom, hhigh, herror, bind, Except.bind]
        simp [hread, firstStray?_cons_of_stray hb, eq_comm]
      | true =>
        obtain ⟨low, hlow⟩ := exists_digit (index + 1) hb
        rw [firstStray?_cons_of_digit hb, ← ih]
        simp only [decodeFrom, hhigh, hlow, bind, Except.bind, pure, Except.pure]
        cases decodeFrom (index + 2) rest <;> simp

theorem toList_encode_cons (byte : UInt8) (bytes : List UInt8) :
    (encode (byte :: bytes)).toList = Json.hexDigit (byte.toNat / 16)
      :: Json.hexDigit (byte.toNat % 16) :: (encode bytes).toList := by
  simp [encode]

/-- **Digits are read** as the bytes for which they are written, in either case. -/
theorem decodeFrom_eq_ok_iff : ∀ (index : ℕ) (text : List Char) (bytes : List UInt8),
    (∀ c ∈ text, c.toNat < 128) → text.length % 2 = 0 →
      (decodeFrom index (text.map fun c => UInt8.ofNat c.toNat) = .ok bytes ↔
        text.map Char.toLower = (encode bytes).toList)
  | index, [], bytes, _, _ => by
    cases bytes <;> simp [decodeFrom, encode]
  | index, [_], _, _, heven => by simp at heven
  | index, a :: b :: rest, bytes, hlow, heven => by
    obtain ⟨ha, hb, hrest⟩ : a.toNat < 128 ∧ b.toNat < 128 ∧ ∀ c ∈ rest, c.toNat < 128 := by
      simpa using hlow
    have heven' : rest.length % 2 = 0 := by
      simp only [List.length_cons] at heven
      omega
    have ih (bs : List UInt8) := decodeFrom_eq_ok_iff (index + 2) rest bs hrest heven'
    -- The reader takes two digits and then the rest.
    have hread : decodeFrom index ((a :: b :: rest).map fun c => UInt8.ofNat c.toNat) = .ok bytes ↔
        ∃ high low bs, digit index (UInt8.ofNat a.toNat) = .ok high ∧
          digit (index + 1) (UInt8.ofNat b.toNat) = .ok low ∧
          decodeFrom (index + 2) (rest.map fun c => UInt8.ofNat c.toNat) = .ok bs ∧
          UInt8.ofNat (16 * high + low) :: bs = bytes := by
      rw [List.map_cons, List.map_cons, decodeFrom]
      simp only [bind_eq_ok_iff, pure, Except.pure, Except.ok.injEq]
      constructor
      · rintro ⟨high, hhigh, low, hlow, bs, hbs, rfl⟩
        exact ⟨high, low, bs, hhigh, hlow, hbs, rfl⟩
      · rintro ⟨high, low, bs, hhigh, hlow, hbs, rfl⟩
        exact ⟨high, hhigh, low, hlow, bs, hbs, rfl⟩
    rw [hread, List.map_cons, List.map_cons]
    constructor
    -- The digits of the byte are those that were read, in lower case.
    · rintro ⟨high, low, bs, hhigh, hlow, hbs, rfl⟩
      obtain ⟨hhigh16, hahigh⟩ := (digit_eq_ok_iff ha).1 hhigh
      obtain ⟨hlow16, hblow⟩ := (digit_eq_ok_iff hb).1 hlow
      have hbyte : (UInt8.ofNat (16 * high + low)).toNat = 16 * high + low :=
        UInt8.toNat_ofNat_of_lt' (by simp only [UInt8.size]; omega)
      have hdiv : (16 * high + low) / 16 = high := by omega
      have hmod : (16 * high + low) % 16 = low := by omega
      rw [toList_encode_cons, hbyte, hdiv, hmod, ← hahigh, ← hblow, (ih bs).1 hbs]
    -- Conversely the text has the digits of the byte.
    · intro hlower
      cases bytes with
      | nil => simp [encode] at hlower
      | cons v bs =>
        have hv := v.toNat_lt
        rw [toList_encode_cons, List.cons.injEq, List.cons.injEq] at hlower
        obtain ⟨hhigh, hlow, hrest'⟩ := hlower
        refine ⟨v.toNat / 16, v.toNat % 16, bs, (digit_eq_ok_iff ha).2 ⟨by omega, hhigh⟩,
          (digit_eq_ok_iff hb).2 ⟨by omega, hlow⟩, (ih bs).2 hrest', ?_⟩
        rw [Nat.div_add_mod, UInt8.ofNat_toNat]

theorem firstStray?_eq_none_iff {index : ℕ} {text : List UInt8} :
    firstStray? index text = none ↔ ∀ b ∈ text, isDigit b = true := by
  induction text generalizing index with
  | nil => simp
  | cons b rest ih =>
    rw [List.forall_mem_cons]
    cases hb : isDigit b with
    | false => simp [firstStray?_cons_of_stray hb]
    | true => simp [firstStray?_cons_of_digit hb, ih]

/-- **What makes a text denote no bytes:** an odd number of bytes in it, or else the first of them
that is no digit. -/
inductive Malformed (text : String) : Fault → Prop where
  | oddLength (hodd : text.toUTF8.toList.length % 2 = 1) : Malformed text .oddLength
  | notADigit {byte : UInt8} {index : ℕ} (heven : text.toUTF8.toList.length % 2 = 0)
    (hstray : firstStray? 0 text.toUTF8.toList = some (byte, index)) :
    Malformed text (.notADigit byte index)

theorem decode_eq_error_iff {text : String} {fault : Fault} :
    decode text = .error fault ↔ Malformed text fault := by
  unfold decode
  -- The length is looked at before the digits.
  by_cases hodd : text.toUTF8.toList.length % 2 = 1
  · simp only [if_pos hodd, Except.error.injEq]
    constructor
    · rintro rfl
      exact .oddLength hodd
    · rintro (_ | ⟨heven, -⟩)
      · rfl
      · omega
  · have heven : text.toUTF8.toList.length % 2 = 0 := by omega
    simp only [if_neg hodd]
    rw [decodeFrom_eq_error_iff 0 _ heven]
    constructor
    · rintro ⟨byte, index, hstray, rfl⟩
      exact .notADigit heven hstray
    · rintro (hodd' | ⟨-, hstray⟩)
      · exact absurd hodd' hodd
      · exact ⟨_, _, hstray, rfl⟩

theorem toNat_lt_of_toLower {c : Char} (h : c.toLower.toNat < 128) : c.toNat < 128 := by
  unfold Char.toLower at h
  split at h
  · next hupper =>
    exact lt_of_le_of_lt (UInt32.le_iff_toNat_le.1 hupper.2) (by decide)
  · exact h

section Lowered

variable {text : String} {bytes : List UInt8}

/-- What is written for bytes, in either case, has one byte for each character. -/
theorem toList_toUTF8_of_lowered (h : text.toList.map Char.toLower = (encode bytes).toList) :
    (∀ c ∈ text.toList, c.toNat < 128) ∧
      text.toUTF8.toList = text.toList.map fun c => UInt8.ofNat c.toNat := by
  have hlow : ∀ c ∈ text.toList, c.toNat < 128 := fun c hc =>
    toNat_lt_of_toLower (toNat_lt_of_mem_encode (h ▸ List.mem_map_of_mem hc))
  have hbytes := toList_toUTF8_ofList hlow
  rw [String.ofList_toList] at hbytes
  exact ⟨hlow, hbytes⟩

theorem length_of_lowered (h : text.toList.map Char.toLower = (encode bytes).toList) :
    text.toUTF8.toList.length = 2 * bytes.length := by
  rw [(toList_toUTF8_of_lowered h).2, ← length_encode, ← h, List.length_map, List.length_map]

/-- **A text denotes bytes** if it is what is written for them, in either case. -/
theorem decode_eq_ok_iff :
    decode text = .ok bytes ↔ text.toList.map Char.toLower = (encode bytes).toList := by
  constructor
  · intro h
    unfold decode at h
    dsimp only at h
    split at h
    · cases h
    next hodd =>
    have heven : text.toUTF8.toList.length % 2 = 0 := by omega
    -- Every byte is a digit, for the first one that is none would have stopped the reading.
    have hstray : firstStray? 0 text.toUTF8.toList = none := by
      rw [Option.eq_none_iff_forall_ne_some]
      rintro ⟨byte, index⟩ hsome
      have herror := (decodeFrom_eq_error_iff 0 _ heven).2 ⟨byte, index, hsome, rfl⟩
      rw [h] at herror
      cases herror
    obtain ⟨hlow, hbytes⟩ := toList_toUTF8_of_lt fun b hb =>
      lt_of_isDigit (firstStray?_eq_none_iff.1 hstray b hb)
    rw [hbytes] at h heven
    rw [List.length_map] at heven
    exact (decodeFrom_eq_ok_iff 0 _ _ hlow heven).1 h
  · intro hlower
    obtain ⟨hlow, hbytes⟩ := toList_toUTF8_of_lowered hlower
    have hlength := length_of_lowered hlower
    have heven : text.toList.length % 2 = 0 := by
      rw [hbytes, List.length_map] at hlength
      omega
    have hodd : ¬ text.toUTF8.toList.length % 2 = 1 := by omega
    unfold decode
    dsimp only
    rw [if_neg hodd, hbytes]
    exact (decodeFrom_eq_ok_iff 0 _ _ hlow heven).2 hlower

end Lowered

end Hex

end Scoresheet
