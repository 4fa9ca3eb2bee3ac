/-!
# Fields of a text

A separator cuts a text into fields: as many as it occurs, and one more. Put together with the
separator between them they are the text again.

* `fields` — the fields of a text.
* `joined` — fields with a separator between them.
* `joined_fields` — nothing is lost.
-/

namespace Scoresheet.Text

/-- The fields of a text between occurrences of a separator, of which at least one exists. -/
def fields (separator : Char) : List Char → List (List Char)
  | [] => [[]]
  | c :: rest =>
    if c = separator then [] :: fields separator rest
    else match fields separator rest with
      | [] => [[c]]
      | field :: others => (c :: field) :: others

/-- Fields with a separator between them. -/
def joined (separator : Char) : List (List Char) → List Char
  | [] => []
  | [field] => field
  | field :: others => field ++ separator :: joined separator others

theorem fields_ne_nil (separator : Char) (text : List Char) : fields separator text ≠ [] := by
  cases text with
  | nil => simp [fields]
  | cons c rest =>
    simp only [fields]
    split
    · simp
    · split <;> simp

/-- A field that begins a text begins its first field. -/
theorem joined_cons_head (separator c : Char) (field : List Char) (others : List (List Char)) :
    joined separator ((c :: field) :: others) = c :: joined separator (field :: others) := by
  cases others <;> rfl

/-- **The fields of a text make the text.** -/
theorem joined_fields (separator : Char) (text : List Char) :
    joined separator (fields separator text) = text := by
  induction text with
  | nil => rfl
  | cons c rest ih =>
    simp only [fields]
    split
    next h =>
      obtain ⟨field, others, hf⟩ := List.exists_cons_of_ne_nil (fields_ne_nil separator rest)
      rw [hf] at ih ⊢
      simp [joined, ih, h]
    next h =>
      split
      next hf => exact absurd hf (fields_ne_nil separator rest)
      next field others hf => rw [joined_cons_head, ← hf, ih]

/-- The fields of a string. -/
def stringFields (separator : Char) (s : String) : List String :=
  (fields separator s.toList).map String.ofList

end Scoresheet.Text
