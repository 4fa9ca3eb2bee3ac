import Scoresheet.Index
import Scoresheet.Scoring.Aggregation
import Scoresheet.Session

/-!
# Breakdowns

The result of scoring one session: what became of each answer, and the totals that follow from it.

* `Entry`, `Outcome` — one answer and what became of its formula.
* `Breakdown.fold` — the breakdown of a sequence of entries.
* `Breakdown.byQuestion` — the scored values of each question.
-/

namespace Scoresheet

/-- What became of an answer's formula. -/
inductive Outcome where
  | scored (value : Float)
  | failed (kind : Formula.ErrorKind) (message : String)
deriving BEq

namespace Outcome

/-- The value of an answer that was scored. -/
def value? : Outcome → Option Float
  | scored value => some value
  | failed .. => none

/-- The outcome of evaluating a formula. -/
def ofResult : Except Formula.Error Float → Outcome
  | .ok value => scored value
  | .error e => failed e.kind e.message

end Outcome

/-- One answer of a breakdown. -/
structure Entry where
  key : AnswerKey
  question : String
  formula : String
  outcome : Outcome
deriving BEq

/-- The scored answers of one question in one session. -/
structure Subtotal where
  question : String
  value : Float
  answers : Nat
deriving BEq

/-- The result of scoring one session. -/
structure Breakdown where
  sessionId : Int64
  respondent : Respondent
  aggregation : Aggregation
  entries : List Entry
  /-- The aggregate of all answers, if each has a value and the aggregate is finite. -/
  total : Option Float
  /-- The sum of the answers that have a value, if it is finite. -/
  partialTotal : Option Float
  failed : Nat
  /-- Every answer has a value, but their aggregate is not finite. -/
  overflowed : Bool
deriving BEq

/-- A float, if it is finite. -/
def finite? (x : Float) : Option Float :=
  if x.isFinite then some x else none

/-- The values of the entries that have one, in order. -/
def scoredValues (entries : List Entry) : List Float :=
  entries.filterMap fun entry => entry.outcome.value?

/-- The number of entries without a value. -/
def failedCount (entries : List Entry) : Nat :=
  entries.countP fun entry => entry.outcome.value?.isNone

namespace Breakdown

/-- **The breakdown of a sequence of entries.** One failed entry withholds the total; the sum of the
scored ones remains as the partial total. -/
def fold (sessionId : Int64) (respondent : Respondent) (aggregation : Aggregation)
    (entries : List Entry) : Breakdown :=
  let failed := failedCount entries
  -- A failed entry leaves no aggregate, and so none that is not finite.
  let aggregate := if failed = 0 then aggregation.aggregate? (scoredValues entries) else none
  { sessionId, respondent, aggregation, entries, failed
    total := aggregate.bind finite?
    partialTotal := finite? (sum (scoredValues entries))
    overflowed := aggregate.any fun t => !t.isFinite }

/-- Whether every answer has a value and the total is finite. -/
def isComplete (b : Breakdown) : Bool :=
  b.failed == 0 && !b.overflowed

/-- The value of an answer. Of entries with one key the first counts. -/
def valueOf? (b : Breakdown) (key : AnswerKey) : Option Float :=
  (b.entries.find? fun entry => entry.key == key).bind fun entry => entry.outcome.value?

/-- A subtotal with one more value. The first value of a question brings its name. -/
def addToSubtotal (question : String) (value : Float) (old : Option Subtotal) : Subtotal :=
  let subtotal := old.getD ⟨question, 0.0, 0⟩
  { subtotal with value := subtotal.value + value, answers := subtotal.answers + 1 }

/-- The subtotals with one more entry, if it has a value. -/
def addEntry (subtotals : Index Int64 Subtotal) (entry : Entry) : Index Int64 Subtotal :=
  match entry.outcome.value? with
  | some value => subtotals.alter entry.key.questionId (addToSubtotal entry.question value)
  | none => subtotals

/-- **The scored values of each question,** added from zero in the order of the answers. -/
def byQuestion (b : Breakdown) : Index Int64 Subtotal :=
  b.entries.foldl addEntry ∅

end Breakdown

end Scoresheet
