import Scoresheet.Decimal.Layout
import Scoresheet.Formula.Binding
import Scoresheet.Timestamp

/-!
# Sessions

A session is one respondent's submission of a questionnaire: an ordered list of answers, each of
which picks a possible answer of a question and gives values to the variables that its formula
reads.

* `Session`, `Answer`, `PossibleAnswer`, `Question`, `VariableValue`, `Variable` — the submission.
* `Answer.key` — which answer of the questionnaire was picked.
* `Answer.bindings` — the values of an answer, as its formula reads them.
-/

namespace Scoresheet

/-- A question of the questionnaire. -/
structure Question where
  id : Int64
  name : String
deriving BEq

/-- An answer that may be picked for a question, with the formula that scores it. -/
structure PossibleAnswer where
  id : Int64
  name : String
  formula : String
  question : Question
deriving BEq

/-- A named input that the respondent fills in. -/
structure Variable where
  id : Option Int64
  name : String
deriving BEq

/-- The value given to a variable. -/
structure VariableValue where
  input : Variable
  value : Float
deriving BEq

/-- A possible answer that was picked, with the values given for it. -/
structure Answer where
  possibleAnswer : PossibleAnswer
  variableValues : List VariableValue
deriving BEq

/-- The identity of an answer within a session: its question and the possible answer picked. -/
structure AnswerKey where
  questionId : Int64
  possibleAnswerId : Int64
deriving DecidableEq

/-- The text of an identifier. -/
def idText (id : Int64) : String :=
  toString id.toInt

/-- The text of a key, as `q1/a2`. -/
def AnswerKey.text (key : AnswerKey) : String :=
  "q" ++ idText key.questionId ++ "/a" ++ idText key.possibleAnswerId

/-- Who answered. -/
inductive Respondent where
  | adult
  | kid
deriving DecidableEq, Repr, Ord

namespace Respondent

/-- The word for a kind of respondent. -/
def name : Respondent → String
  | adult => "adult"
  | kid => "kid"

/-- The kind of respondent that a word denotes. -/
def ofName? : String → Option Respondent
  | "adult" => some adult
  | "kid" => some kid
  | _ => none

@[simp] theorem ofName?_name (r : Respondent) : ofName? r.name = some r := by
  cases r <;> rfl

instance : Std.TransOrd Respondent where
  eq_swap := by rintro (_ | _) (_ | _) <;> rfl
  isLE_trans := by rintro (_ | _) (_ | _) (_ | _) <;> decide

instance : Std.LawfulEqOrd Respondent where
  compare_self := by rintro (_ | _) <;> rfl
  eq_of_compare := by rintro (_ | _) (_ | _) <;> decide

end Respondent

/-- One respondent's submission. -/
structure Session where
  id : Int64
  dateTime : Timestamp
  answers : List Answer
  isKid : Bool
  seminarAccessCode : Option String

namespace Answer

/-- The identity of an answer. -/
def key (answer : Answer) : AnswerKey :=
  ⟨answer.possibleAnswer.question.id, answer.possibleAnswer.id⟩

/-- The formula that scores an answer. -/
def formula (answer : Answer) : String :=
  answer.possibleAnswer.formula

/-- The values of a list put into bindings, each as its text. A variable is given once. -/
def bindingsFrom (bindings : Formula.Bindings) :
    List VariableValue → Except Formula.Error Formula.Bindings
  | [] => .ok bindings
  | v :: rest =>
    if (bindings.find? v.input.name).isSome then .error (.duplicateBinding v.input.name)
    else bindingsFrom (bindings.insert v.input.name (Decimal.plain v.value)) rest

/-- **The values of an answer, as its formula reads them.** -/
def bindings (answer : Answer) : Except Formula.Error Formula.Bindings :=
  bindingsFrom {} answer.variableValues

end Answer

/-- Who gave the session's answers. -/
def Session.respondent (session : Session) : Respondent :=
  if session.isKid then .kid else .adult

end Scoresheet
