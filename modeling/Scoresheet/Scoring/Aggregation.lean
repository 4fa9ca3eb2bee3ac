import Scoresheet.Formula.Builtin
import Scoresheet.Text.LowerCase

/-!
# Aggregation

How the values of a session's answers combine into its total, and the settings under which sessions
are scored.

* `sum`, `mean` — of a list of floats, added from left to right.
* `Aggregation.aggregate?` — the aggregate of a list, if the aggregation has one.
* `FailurePolicy` — what becomes of a session when one of its answers has no value.
* `ScoringSettings` — a policy and an aggregation.
-/

namespace Scoresheet

/-- The sum of a list, added from left to right. The sum of nothing is the negative zero, the one
float that changes no other when added. -/
def sum (values : List Float) : Float :=
  values.foldl (· + ·) (-0.0)

/-- The mean of a list. Every value is divided before the quotients are added, so that large values
do not overflow on the way. -/
def mean (values : List Float) : Float :=
  sum (values.map (· / Float.ofNat values.length))

/-- How the values of a session combine into its total. -/
inductive Aggregation where
  | sum
  | mean
  | min
  | max
deriving DecidableEq, Repr

namespace Aggregation

/-- **The aggregate of a list of values.** The sum of nothing exists; nothing has no mean, least or
greatest value. -/
def aggregate? : Aggregation → List Float → Option Float
  | sum, values => some (Scoresheet.sum values)
  | mean, [] => none
  | mean, values => some (Scoresheet.sum values / Float.ofNat values.length)
  | min, [] => none
  | min, a :: rest => some (rest.foldl Formula.lesser a)
  | max, [] => none
  | max, a :: rest => some (rest.foldl Formula.greater a)

/-- All aggregations. -/
def all : List Aggregation := [sum, mean, min, max]

/-- The word for an aggregation. -/
def name : Aggregation → String
  | sum => "sum"
  | mean => "mean"
  | min => "min"
  | max => "max"

/-- The aggregation that a word denotes in stored data. -/
def ofName? (name : String) : Option Aggregation :=
  all.find? fun a => a.name == name

@[simp] theorem ofName?_name (a : Aggregation) : ofName? a.name = some a := by
  cases a <;> rfl

/-- The aggregation that a user asks for: in any case, the mean also by its other names. Otherwise
the text is said to be unknown. -/
def ofRequest (request : String) : Except String Aggregation :=
  match Text.lowerCase request with
  | "sum" => .ok sum
  | "mean" | "avg" | "average" => .ok mean
  | "min" => .ok min
  | "max" => .ok max
  | other => .error ("unknown aggregation: " ++ other)

end Aggregation

/-- What becomes of a session when one of its answers has no value. -/
inductive FailurePolicy where
  /-- The first failing answer fails the session. -/
  | abort
  /-- The failure is kept with the answer, and the session has no total. -/
  | record
deriving DecidableEq, Repr

namespace FailurePolicy

/-- All policies. -/
def all : List FailurePolicy := [abort, record]

/-- The word for a policy. -/
def name : FailurePolicy → String
  | abort => "abort"
  | record => "record"

/-- The policy that a word denotes in stored data. -/
def ofName? (name : String) : Option FailurePolicy :=
  all.find? fun p => p.name == name

@[simp] theorem ofName?_name (p : FailurePolicy) : ofName? p.name = some p := by
  cases p <;> rfl

/-- The policy that a user asks for, in any case. Otherwise the text is said to be unknown. -/
def ofRequest (request : String) : Except String FailurePolicy :=
  match Text.lowerCase request with
  | "abort" => .ok abort
  | "record" => .ok record
  | other => .error ("unknown failure policy: " ++ other)

end FailurePolicy

/-- How sessions are scored. -/
structure ScoringSettings where
  failurePolicy : FailurePolicy := .abort
  aggregation : Aggregation := .sum
deriving DecidableEq, Repr

end Scoresheet
