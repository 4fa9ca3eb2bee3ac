import Mathlib.Data.List.Basic
import Scoresheet.Report.Html

/-!
# Escaped text

What five replacements one after the other make of a text, and what of a page is left if only the
characters that make markup are read.

* `Html.escapeChars_eq_flatMap` — the replacements amount to one map of the characters.
* `Html.markupOf_escape` — nothing in an escaped text can be read as markup.
* `Html.Piece.markupOf_renderAll` — the markup of a page is that of its pieces without their texts.

The ampersand is not counted as markup: it starts the entities, of which an escaped text may have
any number.
-/

namespace Scoresheet.Html

/-- Whether a character opens or closes a tag or an attribute's value. -/
def isMarkup (c : Char) : Bool :=
  c == '<' || c == '>' || c == '"' || c == '\''

/-- The characters of a text that make markup, in order. -/
def markupOf (text : String) : List Char :=
  text.toList.filter isMarkup

@[simp] theorem markupOf_append (s t : String) : markupOf (s ++ t) = markupOf s ++ markupOf t := by
  simp [markupOf]

/-! ### One character at a time -/

/-- What is written for a character. -/
def escapeChar (c : Char) : List Char :=
  (entities.lookup c).getD [c]

/-- Every replacement treats one part of a text after the other, and so do all of them. -/
theorem escapeChars_append (s t : List Char) :
    escapeChars (s ++ t) = escapeChars s ++ escapeChars t := by
  simp [escapeChars, entities, replaceChar]

/-- No replacement touches what one before it has put in: of the five characters an entity holds the
ampersand alone, and its turn comes first. -/
theorem escapeChars_singleton (c : Char) : escapeChars [c] = escapeChar c := by
  by_cases h : c ∈ entities.map Prod.fst
  · -- One of the five: each is looked at by itself.
    have five : ∀ d ∈ entities.map Prod.fst, escapeChars [d] = escapeChar d := by
      simp only [entities, List.map_cons, List.map_nil, List.forall_mem_cons]
      exact ⟨rfl, rfl, rfl, rfl, rfl, nofun⟩
    exact five c h
  · simp only [entities, List.map_cons, List.map_nil, List.mem_cons, List.not_mem_nil,
      or_false, not_or] at h
    obtain ⟨amp, lt, gt, quot, apos⟩ := h
    simp [escapeChars, escapeChar, entities, replaceChar, List.lookup_cons, amp, lt, gt, quot, apos,
      beq_eq_false_iff_ne.2]

/-- **Five replacements throughout a text amount to one map of its characters:** nothing is escaped
twice. -/
theorem escapeChars_eq_flatMap (text : List Char) : escapeChars text = text.flatMap escapeChar := by
  induction text with
  | nil => rfl
  | cons c rest ih =>
    calc escapeChars (c :: rest)
      _ = escapeChars [c] ++ escapeChars rest := escapeChars_append [c] rest
      _ = escapeChar c ++ rest.flatMap escapeChar := by rw [escapeChars_singleton, ih]
      _ = (c :: rest).flatMap escapeChar := List.flatMap_cons.symm

/-! ### What is left of a text -/

/-- What is written for a character makes no markup. -/
theorem isMarkup_of_mem_escapeChar {c d : Char} (h : d ∈ escapeChar c) : isMarkup d = false := by
  unfold escapeChar at h
  cases looked : entities.lookup c with
  | some entity =>
    have harmless : ∀ e ∈ entities, ∀ d ∈ e.2, isMarkup d = false := by simp [entities, isMarkup]
    obtain ⟨before, after, split, -⟩ := List.lookup_eq_some_iff.1 looked
    have mem : (c, entity) ∈ entities := by simp [split]
    exact harmless _ mem d (by simpa [looked] using h)
  | none =>
    -- A character of markup has an entity.
    have covered : ∀ m ∈ ['<', '>', '"', '\''], entities.lookup m ≠ none := by
      simp [entities, List.lookup_cons]
    have same : d = c := by simpa [looked] using h
    subst same
    cases marked : isMarkup d with
    | false => rfl
    | true => exact absurd looked (covered d (by simpa [isMarkup, or_assoc] using marked))

/-- **Nothing in an escaped text can be read as markup.** -/
@[simp] theorem markupOf_escape (text : String) : markupOf (escape text) = [] := by
  rw [markupOf, escape, String.toList_ofList, escapeChars_eq_flatMap, List.filter_eq_nil_iff]
  intro d mem
  obtain ⟨c, -, written⟩ := List.mem_flatMap.1 mem
  simp [isMarkup_of_mem_escapeChar written]

namespace Piece

/-- A piece without its text. Markup stays. -/
def redacted : Piece → Piece
  | markup s => markup s
  | text _ => text ""

/-- A piece has the markup that it has without its text. -/
theorem markupOf_render (p : Piece) : markupOf p.render = markupOf p.redacted.render := by
  cases p with
  | markup s => rfl
  | text s => rw [render, markupOf_escape, redacted, render, markupOf_escape]

/-- **The markup of a page** is that of its pieces without their texts, one after the other. -/
theorem markupOf_renderAll (pieces : List Piece) :
    markupOf (renderAll pieces) =
      (pieces.map redacted).flatMap fun p => markupOf p.render := by
  calc markupOf (renderAll pieces)
    _ = pieces.flatMap fun p => markupOf p.render := by
      simp only [markupOf, renderAll, String.toList_join, List.flatMap_map, List.filter_flatMap]
    _ = pieces.flatMap fun p => markupOf p.redacted.render := by
      simp only [← markupOf_render]
    _ = (pieces.map redacted).flatMap fun p => markupOf p.render := by rw [List.flatMap_map]

end Piece

end Scoresheet.Html
