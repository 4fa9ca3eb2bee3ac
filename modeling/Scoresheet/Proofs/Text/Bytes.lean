import Mathlib.Data.Char
import Mathlib.Data.Nat.Init
import Mathlib.Data.String.Basic

/-!
# The bytes of texts

A text is stored as bytes, one to four for each character. The first byte of a character tells how
many there are and starts with the higher bits, so that texts come in one and the same order by
their characters and by their bytes.

* `toList_toUTF8_inj`, `fromUTF8?_eq_some_iff` — the bytes of a text tell the text.
* `toList_toUTF8_ofList`, `toList_toUTF8_of_lt` — a text of characters below 128, or of bytes below
  128, has one byte for each character.
* `utf8EncodeChar_lt` — of two characters the lesser one has the lesser bytes.
* `toList_toUTF8_lt_iff` — the order of texts is that of their bytes.
-/

namespace Scoresheet

/-! ### The bytes of a text -/

theorem toList_loop_eq (bytes : ByteArray) (i : ℕ) (read : List UInt8) :
    ByteArray.toList.loop bytes i read = read.reverse ++ bytes.data.toList.drop i := by
  fun_induction ByteArray.toList.loop bytes i read with
  | case1 i read hlt ih =>
    have hget : bytes.get! i = bytes.data.toList[i] := getElem!_pos bytes.data i hlt
    rw [ih, List.reverse_cons, List.append_assoc, hget, List.singleton_append,
      List.getElem_cons_drop]
  | case2 i read hge =>
    have hdrop : bytes.data.toList.drop i = [] :=
      List.drop_eq_nil_of_le (Nat.le_of_not_lt hge)
    rw [hdrop, List.append_nil]

/-- The bytes of an array of bytes. -/
theorem toList_toByteArray (bytes : List UInt8) : bytes.toByteArray.toList = bytes := by
  rw [ByteArray.toList, toList_loop_eq, List.data_toByteArray]
  rfl

/-- **The bytes of a text** tell the text. -/
theorem toList_toUTF8_inj {s t : String} : s.toUTF8.toList = t.toUTF8.toList ↔ s = t := by
  constructor
  · intro h
    have hbytes : ∀ bytes : ByteArray, bytes.toList = bytes.data.toList := fun bytes => by
      rw [ByteArray.toList, toList_loop_eq]
      rfl
    rw [hbytes, hbytes] at h
    exact String.toByteArray_inj.1 (ByteArray.ext (Array.toList_inj.1 h))
  · rintro rfl
    rfl

/-- The bytes of a text are those of its characters. -/
theorem toList_toUTF8 (s : String) : s.toUTF8.toList = s.toList.flatMap String.utf8EncodeChar := by
  rw [← String.ofList_toList (s := s), String.toUTF8_eq_toByteArray, String.toByteArray_ofList,
    List.utf8Encode, toList_toByteArray, String.toList_ofList]

/-- A text is read from its bytes, and from no others. -/
theorem fromUTF8?_eq_some_iff {bytes : ByteArray} {s : String} :
    String.fromUTF8? bytes = some s ↔ bytes = s.toUTF8 := by
  unfold String.fromUTF8?
  split
  · next hvalid =>
    rw [Option.some.injEq, ← String.toByteArray_inj]
    rfl
  · next hinvalid =>
    refine ⟨nofun, ?_⟩
    rintro rfl
    exact absurd s.isValidUTF8 hinvalid

/-! ### Texts of small characters -/

/-- **A text of characters below 128** has one byte for each. -/
theorem toList_toUTF8_ofList {text : List Char} (h : ∀ c ∈ text, c.toNat < 128) :
    (String.ofList text).toUTF8.toList = text.map fun c => UInt8.ofNat c.toNat := by
  rw [toList_toUTF8, String.toList_ofList]
  induction text with
  | nil => rfl
  | cons c rest ih =>
    obtain ⟨hhead, hrest⟩ := List.forall_mem_cons.1 h
    have hsize : c.utf8Size = 1 := Char.utf8Size_eq_one_iff.2 (by
      rw [UInt32.le_iff_toNat_le]
      exact Nat.le_of_lt_succ hhead)
    rw [List.flatMap_cons, String.utf8EncodeChar_eq_singleton hsize, ih hrest]
    rfl

/-- A text whose bytes are all below 128 has one character for each. -/
theorem toList_toUTF8_of_lt {text : String} (h : ∀ b ∈ text.toUTF8.toList, b.toNat < 128) :
    (∀ c ∈ text.toList, c.toNat < 128) ∧
      text.toUTF8.toList = text.toList.map fun c => UInt8.ofNat c.toNat := by
  have hnumber : ∀ b ∈ text.toUTF8.toList, (Char.ofNat b.toNat).toNat = b.toNat := by
    intro b hb
    have hvalid : b.toNat.isValidChar := .inl ((h b hb).trans (by decide))
    rw [Char.ofNat, dif_pos hvalid]
    rfl
  -- The characters with the numbers of the bytes make a text of the same bytes.
  obtain ⟨chars, hchars⟩ : ∃ chars, chars = text.toUTF8.toList.map fun b => Char.ofNat b.toNat :=
    ⟨_, rfl⟩
  have hlow : ∀ c ∈ chars, c.toNat < 128 := by
    rw [hchars, List.forall_mem_map]
    intro b hb
    rw [hnumber b hb]
    exact h b hb
  have hbytes : chars.map (fun c => UInt8.ofNat c.toNat) = text.toUTF8.toList := by
    rw [hchars, List.map_map]
    refine (List.map_congr_left fun b hb => ?_).trans (List.map_id _)
    rw [Function.comp_apply, hnumber b hb, UInt8.ofNat_toNat, id]
  have htext : String.ofList chars = text :=
    toList_toUTF8_inj.1 ((toList_toUTF8_ofList hlow).trans hbytes)
  rw [← htext, String.toList_ofList, htext]
  exact ⟨hlow, hbytes.symm⟩

/-! ### The order of texts -/

section Order

theorem uint8_ofNat_lt_iff {m n : ℕ} (hm : m < 256) (hn : n < 256) :
    UInt8.ofNat m < UInt8.ofNat n ↔ m < n := by
  rw [UInt8.lt_iff_toNat_lt, UInt8.toNat_ofNat_of_lt' hm, UInt8.toNat_ofNat_of_lt' hn]

theorem uint8_ofNat_inj {m n : ℕ} (hm : m < 256) (hn : n < 256) :
    UInt8.ofNat m = UInt8.ofNat n ↔ m = n := by
  rw [← UInt8.toNat_inj, UInt8.toNat_ofNat_of_lt' hm, UInt8.toNat_ofNat_of_lt' hn]

/-- **Of two characters the lesser one has the lesser bytes,** whatever follows either. -/
theorem utf8EncodeChar_lt {c d : Char} (h : c < d) (s t : List UInt8) :
    String.utf8EncodeChar c ++ s < String.utf8EncodeChar d ++ t := by
  have hlt : c.val.toNat < d.val.toNat := h
  have hgreatest : d.val.toNat < 1114112 := by
    have hvalid := d.valid
    omega
  -- The digits of a number to the base 64 are divided off one after the other.
  have hdigits (n : ℕ) : n / 64 / 64 = n / 4096 ∧ n / 4096 / 64 = n / 262144 :=
    ⟨Nat.div_div_eq_div_mul .., Nat.div_div_eq_div_mul ..⟩
  have hc := hdigits c.val.toNat
  have hd := hdigits d.val.toNat
  unfold String.utf8EncodeChar
  generalize c.val.toNat = m at *
  generalize d.val.toNat = n at *
  have hm : m / 262144 % 8 = m / 262144 := Nat.mod_eq_of_lt (by omega)
  have hn : n / 262144 % 8 = n / 262144 := Nat.mod_eq_of_lt (by omega)
  simp only [hm, hn]
  -- Either the first bytes already differ in the number of bytes that they announce, or both
  -- characters have as many digits, and the first digit that differs decides.
  split_ifs <;> simp (disch := omega) only [List.cons_append, List.nil_append,
    List.cons_lt_cons_iff, uint8_ofNat_lt_iff, uint8_ofNat_inj] <;> omega

theorem flatMap_utf8EncodeChar_lt {s t : List Char} (h : s < t) :
    s.flatMap String.utf8EncodeChar < t.flatMap String.utf8EncodeChar := by
  induction h with
  | @nil d t =>
    rw [List.flatMap_nil, List.flatMap_cons]
    obtain ⟨b, rest, hbytes⟩ := List.exists_cons_of_ne_nil (@String.utf8EncodeChar_ne_nil d)
    rw [hbytes]
    exact List.nil_lt_cons ..
  | rel hlt => exact utf8EncodeChar_lt hlt _ _
  | cons _ ih => exact List.append_left_lt ih

/-- **The order of texts** is that of their bytes. -/
theorem toList_toUTF8_lt_iff {s t : String} : s.toUTF8.toList < t.toUTF8.toList ↔ s < t := by
  have hlt {s t : String} (h : s < t) : s.toUTF8.toList < t.toUTF8.toList := by
    rw [toList_toUTF8, toList_toUTF8]
    exact flatMap_utf8EncodeChar_lt (String.lt_iff.1 h)
  refine ⟨fun h => ?_, hlt⟩
  obtain hst | rfl | hts := lt_trichotomy s t
  · exact hst
  · exact absurd h (List.lt_irrefl _)
  · exact absurd h (List.lt_asymm (hlt hts))

end Order

end Scoresheet
