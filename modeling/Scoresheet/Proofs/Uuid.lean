import Scoresheet.Proofs.Json.Strings
import Scoresheet.Uuid

/-!
# The text of an identifier is read

The five groups of hexadecimal digits that an identifier is written as denote the identifier.

* `Uuid.hexNumber?_digits` — the digits denote the number.
* `Uuid.parse?_text` — the text of an identifier is read as the identifier.
-/

namespace Scoresheet.Uuid

open Json

/-- The digits from the most significant on denote the number without the digits that are left. -/
theorem hexNumber?_leading {n : ℕ} (hn : n < 16 ^ 32) {k : ℕ} (hk : k ≤ 32) :
    hexNumber? ((List.range k).map fun i => hexDigit (n / 16 ^ (31 - i) % 16))
      = some (n / 16 ^ (32 - k)) := by
  -- By induction on the number of digits that have been read.
  induction k with
  | zero =>
    rw [Nat.sub_zero, Nat.div_eq_of_lt hn]
    rfl
  | succ k ih =>
    have hlt : n / 16 ^ (31 - k) % 16 < 16 := Nat.mod_lt _ (by norm_num)
    have hshift : 32 - k = 31 - k + 1 := by omega
    -- The digits read so far make up the leading part of the number.
    have hcarry : 16 * (n / 16 ^ (32 - k)) + n / 16 ^ (31 - k) % 16 = n / 16 ^ (31 - k) := by
      rw [hshift, pow_succ, ← Nat.div_div_eq_div_mul, Nat.div_add_mod]
    have hread := ih (by omega)
    unfold hexNumber? at hread ⊢
    rw [List.range_succ, List.map_append, List.foldlM_append, hread]
    simp [hexValue?_hexDigit hlt, hcarry]

variable (u : Uuid)

/-- **The digits of an identifier** denote its number. -/
theorem hexNumber?_digits : hexNumber? u.digits = some u.bits.toNat := by
  have hread := hexNumber?_leading u.bits.isLt (le_refl 32)
  rwa [Nat.sub_self, pow_zero, Nat.div_one] at hread

theorem length_digits : u.digits.length = 32 := by
  simp [digits]

theorem ofDigits?_digits : ofDigits? u.digits = some u := by
  rw [ofDigits?, if_pos u.length_digits, hexNumber?_digits, Option.map_some, BitVec.ofNat_toNat,
    BitVec.setWidth_eq]

theorem ne_hyphen_of_mem_digits {c : Char} (h : c ∈ u.digits) : c ≠ '-' := by
  obtain ⟨i, -, rfl⟩ := List.mem_map.1 h
  have hlt : u.bits.toNat / Nat.pow 16 (31 - i) % 16 < 16 := Nat.mod_lt _ (by norm_num)
  generalize u.bits.toNat / Nat.pow 16 (31 - i) % 16 = n at hlt
  interval_cases n <;> decide

/-- Without the hyphens between the groups the digits are left. -/
theorem filter_grouped {cs : List Char} (h : ∀ c ∈ cs, c ≠ '-') :
    (grouped cs).filter (· ≠ '-') = cs := by
  -- No part of the digits has a hyphen in it.
  have hpart : ∀ part : List Char, part ⊆ cs → part.filter (· ≠ '-') = part := by
    intro part hpart
    rw [List.filter_eq_self]
    exact fun c hc => decide_eq_true (h c (hpart hc))
  have htake : ∀ i j, (cs.drop i).take j ⊆ cs := fun i j _ hc =>
    List.mem_of_mem_drop (List.mem_of_mem_take hc)
  -- The parts follow one another without a gap.
  have hjoin : ∀ i j, (cs.drop i).take j ++ cs.drop (i + j) = cs.drop i := by
    intro i j
    rw [← List.drop_drop, List.take_append_drop]
  unfold grouped
  simp only [List.filter_append, List.filter_cons, hpart _ (List.take_subset 8 cs),
    hpart _ (htake _ _), hpart _ (List.drop_subset 20 cs)]
  have hall := List.take_append_drop 8 cs
  rw [← hjoin 8 4, ← hjoin 12 4, ← hjoin 16 4] at hall
  simpa using hall

theorem length_grouped {cs : List Char} (h : cs.length = 32) : (grouped cs).length = 36 := by
  simp [grouped, h]

theorem ofGroups?_grouped_digits : ofGroups? (grouped u.digits) = some u := by
  unfold ofGroups?
  rw [filter_grouped fun _ => u.ne_hyphen_of_mem_digits]
  rw [if_pos ⟨length_grouped u.length_digits, rfl⟩, ofDigits?_digits]

/-- **The text of an identifier** is read as the identifier. -/
theorem parse?_text : parse? u.text = some u := by
  have hlength := length_grouped u.length_digits
  unfold parse? text
  simp [hlength, ofGroups?_grouped_digits]

end Scoresheet.Uuid
