import Scoresheet.Formula.Evaluation
import Scoresheet.Session

/-!
# Validating sessions

What would make the scoring of a session fail is looked for without evaluating anything: answers
without a formula, variables given twice or not at all, formulas that cannot be read, functions that
do not exist.

* `Problem` — one finding.
* `Answer.problems` — the findings about one answer.
* `Session.warnings` — the findings about a session, each with the answer it concerns.
-/

namespace Scoresheet

/-- A finding of the validation. -/
inductive Problem where
  | noAnswers
  | emptyFormula
  | repeatedVariable (name : String)
  | missingValue (name : String)
  | invalidFormula (formula : String) (cause : Formula.Error)
  | unknownFunction (name : String)
deriving DecidableEq

/-- The wording of a finding. -/
def Problem.message : Problem → String
  | noAnswers => "session has no answers"
  | emptyFormula => "formula is empty"
  | repeatedVariable name => "variable '" ++ name ++ "' is given more than once"
  | missingValue name => "formula uses '" ++ name ++ "' but the answer has no value for it"
  | invalidFormula formula cause => "formula '" ++ formula ++ "' is invalid: " ++ cause.message
  | unknownFunction name => "unknown function '" ++ name ++ "'"

/-- A finding about a session, and the place of the answer that it concerns, if it concerns one. -/
structure Warning where
  sessionId : Int64
  answerIndex : Option Nat
  problem : Problem
deriving DecidableEq

/-- The elements of a list that occurred before in it. -/
def repetitions {α : Type} [BEq α] (seen : List α) : List α → List α
  | [] => []
  | a :: rest =>
    if seen.contains a then a :: repetitions seen rest else repetitions (a :: seen) rest

namespace Answer

/-- The names of the variables that an answer gives values to. -/
def variableNames (answer : Answer) : List String :=
  answer.variableValues.map fun v => v.input.name

/-- The names of called functions that do not exist, once for every call. -/
def unknownFunctions (tokens : List Formula.Token) : List String :=
  tokens.filterMap fun
    | .function name _ => if (Formula.Builtin.ofName? name).isNone then some name else none
    | _ => none

/-- The findings about the formula of an answer. -/
def formulaProblems (answer : Answer) : List Problem :=
  match Formula.freeVariables answer.formula with
  | .error cause => [.invalidFormula answer.formula cause]
  | .ok names =>
    let missing := names.filter fun name => !answer.variableNames.contains name
    let calls := match Formula.tokenize answer.formula with
      | .ok tokens => unknownFunctions tokens
      | .error _ => []
    missing.map .missingValue ++ calls.map .unknownFunction

/-- **The findings about one answer.** Nothing more is said of an answer without a formula. -/
def problems (answer : Answer) : List Problem :=
  if Text.trim answer.formula.toList = [] then [.emptyFormula]
  else (repetitions [] answer.variableNames).map .repeatedVariable ++ answer.formulaProblems

end Answer

namespace Session

/-- **The findings about a session,** in the order of its answers. -/
def warnings (session : Session) : List Warning :=
  let general := if session.answers.isEmpty then [⟨session.id, none, .noAnswers⟩] else []
  let ofAnswers := session.answers.zipIdx.flatMap fun (answer, index) =>
    answer.problems.map fun problem => ⟨session.id, some index, problem⟩
  general ++ ofAnswers

end Session

end Scoresheet
