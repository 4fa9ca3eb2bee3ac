import Mathlib.Data.List.Basic
import Scoresheet.Files.Path

/-!
# The steps of a joined path

A path continued by a name leads one step further, from the same start, however the path is
written: with a slash at its end or without, and also if it is empty.

* `Text.fields_append_cons` — the fields of two texts with a separator between them.
* `Path.steps_join`, `Path.relative_join` — a path continued by a name.
-/

namespace Scoresheet

namespace Text

variable {separator : Char}

/-- A text without separators is one field. -/
theorem fields_of_notMem {text : List Char} (h : separator ∉ text) :
    fields separator text = [text] := by
  induction text with
  | nil => rfl
  | cons c rest ih =>
    obtain ⟨other, later⟩ := not_or.1 (mt List.mem_cons.2 h)
    rw [fields, if_neg (Ne.symm other), ih later]

/-- A separator between two texts separates their fields. -/
theorem fields_append_cons (first second : List Char) :
    fields separator (first ++ separator :: second) =
      fields separator first ++ fields separator second := by
  induction first with
  | nil => simp [fields]
  | cons c first ih =>
    rw [List.cons_append]
    -- A separator opens a new field, and any other character belongs to the first field.
    by_cases h : c = separator
    · simp only [fields, if_pos h, ih, List.cons_append]
    · obtain ⟨field, others, cut⟩ := List.exists_cons_of_ne_nil (fields_ne_nil separator first)
      simp only [fields, if_neg h, ih, cut, List.cons_append]

end Text

namespace Path

/-- Whether a text is a single step: it is not empty and holds no slash. -/
def IsStep (name : String) : Prop :=
  name.toList ≠ [] ∧ '/' ∉ name.toList

/-- The steps of a text, as characters. -/
def stepChars (text : List Char) : List (List Char) :=
  (Text.fields '/' text).filter (· ≠ [])

theorem steps_eq (path : Path) : path.steps = (stepChars path.text.toList).map String.ofList := rfl

/-- A slash and a single step behind it are one step more. -/
theorem stepChars_append {name : String} (h : IsStep name) (text : List Char) :
    stepChars (text ++ '/' :: name.toList) = stepChars text ++ [name.toList] := by
  rw [stepChars, Text.fields_append_cons, Text.fields_of_notMem h.2, List.filter_append]
  simp [stepChars, h.1]

/-- A slash at the end is no step. -/
theorem stepChars_append_slash (text : List Char) : stepChars (text ++ ['/']) = stepChars text := by
  rw [stepChars, Text.fields_append_cons, List.filter_append]
  simp [stepChars, Text.fields]

/-- What does not start with a slash does not start at the root. -/
theorem IsStep.relative {name : String} (h : IsStep name) : (Path.mk name).isAbsolute = false := by
  rw [isAbsolute, beq_eq_false_iff_ne]
  exact fun starts => h.2 (List.mem_of_mem_head? starts)

/-- **A path continued by a name leads one step further.** -/
theorem steps_join {name : String} (h : IsStep name) (path : Path) :
    (path.join ⟨name⟩).steps = path.steps ++ [name] := by
  have joined : stepChars (path.join ⟨name⟩).text.toList =
      stepChars path.text.toList ++ [name.toList] := by
    rw [join, h.relative, if_neg Bool.false_ne_true]
    -- The name is joined behind a slash, unless the path is empty or ends with one.
    split
    next closed =>
      -- The path is empty, or it ends with a slash already.
      obtain empty | slash := Bool.or_eq_true_iff.1 closed
      · have nothing : path.text.toList = [] := by simpa using empty
        simp [nothing, stepChars, Text.fields_of_notMem h.2, Text.fields, h.1]
      · obtain ⟨before, text⟩ := List.getLast?_eq_some_iff.1 (eq_of_beq slash)
        rw [String.toList_append, text, List.append_assoc, stepChars_append_slash]
        exact stepChars_append h before
    next =>
      rw [String.toList_append, String.toList_append, List.append_assoc]
      exact stepChars_append h path.text.toList
  rw [steps_eq, joined, List.map_append, List.map_singleton, String.ofList_toList, ← steps_eq]

/-- **A path continued by a name starts where the path starts.** -/
theorem isAbsolute_join {name : String} (h : IsStep name) (path : Path) :
    (path.join ⟨name⟩).isAbsolute = path.isAbsolute := by
  rw [join, h.relative, if_neg Bool.false_ne_true]
  cases text : path.text.toList with
  | nil =>
    have empty : path.text = "" := String.toList_eq_nil_iff.1 text
    simpa [isAbsolute, empty] using h.relative
  | cons c rest =>
    split <;> simp [isAbsolute, text]

end Path

end Scoresheet
