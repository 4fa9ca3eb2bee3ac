import Scoresheet.Scoring.Calculator
import Scoresheet.Scoring.Statistics
import Scoresheet.Uuid

/-!
# Batch reports

The result of scoring a batch of sessions: the breakdowns of those that have one, the failures of
those that have none, and the statistics.

* `Report` — the result of a batch.
* `Report.breakdown?` — the breakdown of one session.
-/

namespace Scoresheet

/-- A session without a breakdown. -/
structure SessionFailure where
  sessionId : Int64
  /-- The answer that failed, if one did. -/
  answer : Option AnswerKey
  message : String
deriving BEq, DecidableEq

/-- The result of scoring a batch of sessions. -/
structure Report where
  id : Uuid
  createdAt : Timestamp
  settings : ScoringSettings
  /-- In ascending order of their sessions. -/
  breakdowns : List Breakdown
  /-- In ascending order of their sessions. -/
  failures : List SessionFailure
  statistics : Statistics
  durationMs : Nat

/-- The breakdown of a session, if it has one. -/
def Report.breakdown? (report : Report) (sessionId : Int64) : Option Breakdown :=
  report.breakdowns.find? fun b => b.sessionId == sessionId

end Scoresheet
