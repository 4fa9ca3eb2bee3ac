import Scoresheet.Formula.Evaluation
import Scoresheet.Scoring.Breakdown

/-!
# Scoring a session

Every answer's formula is evaluated with the answer's own values, and the outcomes are folded into a
breakdown. The failure policy decides whether a failing answer ends the scoring.

* `Answer.evaluate` — the value of one answer.
* `ScoringError` — why a session has no breakdown.
* `score` — the breakdown of a session under given settings.
-/

namespace Scoresheet

/-- The value of an answer's formula with the answer's own values. -/
def Answer.evaluate (answer : Answer) : Except Formula.Error Float := do
  let bindings ← answer.bindings
  Formula.evaluate answer.formula bindings

/-- The entry of an answer. -/
def Answer.entry (answer : Answer) : Entry where
  key := answer.key
  question := answer.possibleAnswer.question.name
  formula := answer.formula
  outcome := .ofResult answer.evaluate

/-- Why a session has no breakdown. -/
inductive ScoringError where
  /-- An answer failed, and the policy is to abort. -/
  | answer (key : AnswerKey) (cause : Formula.Error)
  /-- Every answer has a value, but the total is not finite, and the policy is to abort. -/
  | total (sessionId : Int64) (cause : Formula.Error)
deriving DecidableEq

namespace ScoringError

/-- The error of the formula or aggregation. -/
def cause : ScoringError → Formula.Error
  | answer _ cause | total _ cause => cause

/-- The answer that failed, if one did. -/
def key? : ScoringError → Option AnswerKey
  | answer key _ => some key
  | total .. => none

/-- The wording of the error. -/
def message : ScoringError → String
  | answer key cause => "answer " ++ key.text ++ " failed: " ++ cause.message
  | total sessionId cause => "session " ++ idText sessionId ++ " total failed: " ++ cause.message

end ScoringError

/-- The entries of a session's answers in order, up to the first answer that fails. -/
def entriesOrAbort : List Answer → Except ScoringError (List Entry)
  | [] => .ok []
  | answer :: rest =>
    match answer.evaluate with
    | .error cause => .error (.answer answer.key cause)
    | .ok _ => (entriesOrAbort rest).map (answer.entry :: ·)

/-- **The breakdown of a session.** Where failures are recorded there always is one. -/
def score (settings : ScoringSettings) (session : Session) : Except ScoringError Breakdown :=
  match settings.failurePolicy with
  | .record =>
    .ok (.fold session.id session.respondent settings.aggregation
      (session.answers.map Answer.entry))
  | .abort => do
    let entries ← entriesOrAbort session.answers
    let breakdown := Breakdown.fold session.id session.respondent settings.aggregation entries
    if breakdown.overflowed then throw (.total session.id (.nonFinite settings.aggregation.name))
    return breakdown

end Scoresheet
