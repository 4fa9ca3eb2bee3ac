/-!
# Ranges of characters

Sets of characters are tables of ranges of code points. What a standard says of characters is kept
in such tables, and the rest of the library only asks whether a character is in one.

* `inRanges` — membership in a table.
-/

namespace Scoresheet.Text

/-- Whether a code point lies in one of the ranges, given by their first and last. -/
def inRanges (ranges : List (Nat × Nat)) (code : Nat) : Bool :=
  ranges.any fun (first, last) => first ≤ code && code ≤ last

/-- A code point is in a table exactly if it is in one of its ranges. -/
theorem inRanges_iff {ranges : List (Nat × Nat)} {code : Nat} :
    inRanges ranges code = true ↔ ∃ range ∈ ranges, range.1 ≤ code ∧ code ≤ range.2 := by
  simp [inRanges]

end Scoresheet.Text
