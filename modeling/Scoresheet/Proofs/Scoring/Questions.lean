import Scoresheet.Proofs.Index
import Scoresheet.Scoring.Breakdown

/-!
# The questions of a breakdown

The subtotals of a breakdown are made in one pass over its entries, which may belong to any
questions in any order, and some of which have failed. Each question comes out as if the pass had
met no other entries than the scored ones of that question.

* `Breakdown.scoredOf` — the scored entries of a question, in order.
* `Breakdown.scoredSum` — their values, added up from zero.
* `Subtotal.ofScored?` — the subtotal of scored entries, if there are any.
* `Breakdown.find?_byQuestion` — the subtotals of a breakdown in these terms.
* `Breakdown.sum_answers_byQuestion` — the scored entries of all questions, counted.
* `Breakdown.byQuestion_tells` — what the subtotals tell of the entries.
-/

namespace Scoresheet

/-! ### The scored entries of one question -/

/-- What an entry adds to a question: the question's name and a value, if the entry belongs to the
question and was scored. -/
def Entry.scoredFor? (question : Int64) (entry : Entry) : Option (String × Float) :=
  if entry.key.questionId = question then
    entry.outcome.value?.map fun value => (entry.question, value)
  else none

theorem Entry.isSome_scoredFor?_iff {question : Int64} {entry : Entry} :
    (entry.scoredFor? question).isSome = true ↔
      entry.key.questionId = question ∧ ∃ value, entry.outcome = .scored value := by
  unfold scoredFor?
  by_cases hquestion : entry.key.questionId = question
  · cases houtcome : entry.outcome <;> simp [hquestion, Outcome.value?]
  · simp [hquestion]

/-- The subtotal of scored entries, if there are any. The first of them brings the name. -/
def Subtotal.ofScored? : List (String × Float) → Option Subtotal
  | [] => none
  | (question, value) :: rest =>
    some ⟨question, ((value :: rest.map Prod.snd).foldl (· + ·) 0.0), rest.length + 1⟩

/-- **A subtotal tells of scored entries:** the name that the first of them brings, how many they
are, and their values, added up from zero in their order. -/
structure Subtotal.Tells (subtotal : Subtotal) (scored : List (String × Float)) : Prop where
  question : scored.head?.map Prod.fst = some subtotal.question
  answers : subtotal.answers = scored.length
  value : subtotal.value = (scored.map Prod.snd).foldl (· + ·) 0.0

theorem Subtotal.tells_of_ofScored? {scored : List (String × Float)} {subtotal : Subtotal}
    (h : ofScored? scored = some subtotal) : subtotal.Tells scored := by
  cases scored with
  | nil => cases h
  | cons first rest =>
    obtain rfl := Option.some.inj h
    exact ⟨rfl, rfl, rfl⟩

theorem Subtotal.isSome_ofScored?_iff {scored : List (String × Float)} :
    (ofScored? scored).isSome = true ↔ scored ≠ [] := by
  cases scored <;> simp [ofScored?]

namespace Breakdown

/-- **The scored entries of a question,** in order, each with the question's name and its value. -/
def scoredOf (b : Breakdown) (question : Int64) : List (String × Float) :=
  b.entries.filterMap (Entry.scoredFor? question)

/-- The values of a question, added up from zero in the order of the entries. -/
def scoredSum (b : Breakdown) (question : Int64) : Float :=
  ((b.scoredOf question).map Prod.snd).foldl (· + ·) 0.0

theorem scoredOf_ne_nil_iff {b : Breakdown} {question : Int64} :
    b.scoredOf question ≠ [] ↔
      ∃ entry ∈ b.entries, entry.key.questionId = question ∧
        ∃ value, entry.outcome = .scored value := by
  simp only [ne_eq, scoredOf, List.filterMap_eq_nil_iff, not_forall, exists_prop,
    ← Option.isSome_iff_ne_none, Entry.isSome_scoredFor?_iff]

/-! ### One pass over all entries -/

/-- An entry changes the subtotal of its own question, and only if it was scored. -/
theorem find?_addEntry (question : Int64) (index : Index Int64 Subtotal) (entry : Entry) :
    (addEntry index entry).find? question
      = (entry.scoredFor? question).elim (index.find? question) fun scored =>
        some (addToSubtotal scored.1 scored.2 (index.find? question)) := by
  unfold addEntry Entry.scoredFor?
  -- A failed entry leaves the table as it is, and a scored one changes its own question.
  cases houtcome : entry.outcome.value? with
  | none => simp
  | some value =>
    by_cases hquestion : entry.key.questionId = question
    · subst hquestion
      simp [Index.find?_alter_self]
    · simp [Index.find?_alter_of_ne (Ne.symm hquestion), hquestion]

/-- Scored entries, added one after the other to a subtotal that there is. -/
theorem foldl_addToSubtotal (scored : List (String × Float)) (subtotal : Subtotal) :
    scored.foldl (fun old s => some (addToSubtotal s.1 s.2 old)) (some subtotal)
      = some ⟨subtotal.question, (scored.map Prod.snd).foldl (· + ·) subtotal.value,
        subtotal.answers + scored.length⟩ := by
  induction scored generalizing subtotal with
  | nil => rfl
  | cons first rest ih =>
    rw [List.foldl_cons, ih, List.length_cons, Nat.add_comm rest.length, ← Nat.add_assoc]
    rfl

/-- **The subtotal of a question** is that of its scored entries, whatever stands among them. -/
theorem find?_byQuestion (b : Breakdown) (question : Int64) :
    b.byQuestion.find? question = Subtotal.ofScored? (b.scoredOf question) := by
  have hfind : b.byQuestion.find? question = (b.scoredOf question).foldl
      (fun old s => some (addToSubtotal s.1 s.2 old)) none :=
    Index.find?_foldl (find?_addEntry question) b.entries ∅
  rw [hfind]
  cases b.scoredOf question with
  | nil => rfl
  -- The first scored entry opens the subtotal, and the others are added to it in turn.
  | cons first rest =>
    rw [List.foldl_cons, foldl_addToSubtotal, Nat.add_comm]
    rfl

theorem value_of_find?_byQuestion {b : Breakdown} {question : Int64} {subtotal : Subtotal}
    (h : b.byQuestion.find? question = some subtotal) : subtotal.value = b.scoredSum question := by
  rw [find?_byQuestion] at h
  exact (Subtotal.tells_of_ofScored? h).value

/-- The questions of a breakdown are those that own a scored entry. -/
theorem mem_keys_byQuestion {b : Breakdown} {question : Int64} :
    question ∈ b.byQuestion.keys ↔ b.scoredOf question ≠ [] := by
  rw [Index.mem_keys_iff, find?_byQuestion, Subtotal.isSome_ofScored?_iff]

/-- The breakdown with the entries of one question only. -/
def only (question : Int64) (b : Breakdown) : Breakdown :=
  { b with entries := b.entries.filter fun entry => entry.key.questionId = question }

theorem scoredOf_only (b : Breakdown) (question q : Int64) :
    (b.only question).scoredOf q = if q = question then b.scoredOf q else [] := by
  unfold only scoredOf
  rw [List.filterMap_filter]
  split
  -- An entry of the question stays, and one of another question has no value for it.
  · next heq =>
    subst heq
    refine List.filterMap_congr fun entry _ => ?_
    by_cases hquestion : entry.key.questionId = q <;> simp [Entry.scoredFor?, hquestion]
  -- Of another question nothing is left.
  · next hne =>
    refine List.filterMap_eq_nil_iff.2 fun entry _ => ?_
    by_cases hquestion : entry.key.questionId = question
    · simp [Entry.scoredFor?, hquestion, Ne.symm hne]
    · simp [hquestion]

/-! ### All questions -/

/-- A scored entry adds one to the answers of all questions. -/
theorem sum_answers_addEntry (index : Index Int64 Subtotal) (entry : Entry) :
    ((addEntry index entry).entries.map fun e => e.2.answers).sum
      = (index.entries.map fun e => e.2.answers).sum
        + if entry.outcome.value?.isSome then 1 else 0 := by
  unfold addEntry
  cases entry.outcome.value? with
  | none => rfl
  | some value =>
    -- Adding an entry counts one more, whether or not the question was there.
    have hchange (old : Option Subtotal) :
        (addToSubtotal entry.question value old).answers = old.elim 0 Subtotal.answers + 1 := by
      cases old <;> rfl
    exact Index.sum_alterEntries hchange index.entries

/-- **The answers of all questions** are the entries that were scored. -/
theorem sum_answers_byQuestion (b : Breakdown) :
    (b.byQuestion.entries.map fun e => e.2.answers).sum
      = b.entries.countP fun entry => entry.outcome.value?.isSome :=
  Index.sum_foldl sum_answers_addEntry b.entries

/-- An entry is scored or has failed. -/
theorem countP_isSome_add_failedCount (entries : List Entry) :
    (entries.countP fun entry => entry.outcome.value?.isSome) + failedCount entries
      = entries.length := by
  have hfailed : failedCount entries
      = entries.countP fun entry => ¬ entry.outcome.value?.isSome = true :=
    List.countP_congr fun entry _ => by simp
  rw [hfailed, ← List.length_eq_countP_add_countP]

/-- **What the subtotals of a breakdown tell of its entries.** There is one for every question that
owns a scored entry and for no other. It has the name that the first of these entries brings, their
number, and their values added up from zero in their order; and it is the same if the entries of all
other questions are taken away. In a breakdown of a session, the answers of all questions are the
entries other than the failed ones. -/
theorem byQuestion_tells (b : Breakdown) :
    (∀ question, question ∈ b.byQuestion.keys ↔
      ∃ entry ∈ b.entries, entry.key.questionId = question ∧
        ∃ value, entry.outcome = .scored value) ∧
    (∀ question subtotal, b.byQuestion.find? question = some subtotal →
      subtotal.Tells (b.scoredOf question)) ∧
    (∀ question q, (b.only question).byQuestion.find? q
      = if q = question then b.byQuestion.find? question else none) ∧
    ∀ sessionId respondent aggregation entries,
      ((fold sessionId respondent aggregation entries).byQuestion.entries.map
          fun e => e.2.answers).sum
        + (fold sessionId respondent aggregation entries).failed = entries.length := by
  refine ⟨fun question => ?_, fun question subtotal h => ?_, fun question q => ?_,
    fun sessionId respondent aggregation entries => ?_⟩
  · rw [mem_keys_byQuestion, scoredOf_ne_nil_iff]
  · rw [find?_byQuestion] at h
    exact Subtotal.tells_of_ofScored? h
  · rw [find?_byQuestion, find?_byQuestion, scoredOf_only]
    split
    · next heq => rw [heq]
    · rfl
  · rw [sum_answers_byQuestion]
    exact countP_isSome_add_failedCount entries

end Breakdown

end Scoresheet
