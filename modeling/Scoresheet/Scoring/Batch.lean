import Scoresheet.Report

/-!
# Scoring a batch

The sessions of a batch are scored independently of one another and may finish in any order. Their
outcomes are collected as they come and then put in the order of the sessions' identifiers, so that
the report does not show who finished first.

* `Batch.outcomes` — what becomes of each session.
* `Batch.collect` — the parts of a report made of outcomes in the order in which they came.
* `Batch.run` — a batch whose sessions finish in the order in which they were given.
-/

namespace Scoresheet.Batch

/-- A session's identifier and what became of the session. -/
structure Completion where
  sessionId : Int64
  result : Except ScoringError Breakdown

/-- What is told about a session when it is finished. -/
inductive Progress where
  | complete (breakdown : Breakdown)
  | failed (sessionId : Int64) (message : String)

/-- What a batch comes to. -/
structure Outcome where
  breakdowns : List Breakdown
  failures : List SessionFailure
  statistics : Statistics
  /-- One message a session, in the order in which the sessions finished. -/
  progress : List Progress
  /-- The number of sessions submitted. -/
  total : Nat

/-- What becomes of each session. -/
def outcomes (settings : ScoringSettings) (sessions : List Session) : List Completion :=
  sessions.map fun session => ⟨session.id, score settings session⟩

/-- The failure of a session. Of a failed answer the message is that of its formula, since the
failure names the answer. -/
def failure (sessionId : Int64) : ScoringError → SessionFailure
  | .answer key cause => ⟨sessionId, some key, cause.message⟩
  | .total id cause => ⟨sessionId, none, (ScoringError.total id cause).message⟩

namespace Completion

/-- The breakdown of a session that has one. -/
def breakdown? (c : Completion) : Option Breakdown :=
  c.result.toOption

/-- The failure of a session without a breakdown. -/
def failure? (c : Completion) : Option SessionFailure :=
  match c.result with
  | .ok _ => none
  | .error e => some (failure c.sessionId e)

/-- What is told when the session is finished. -/
def progress (c : Completion) : Progress :=
  match c.result with
  | .ok breakdown => .complete breakdown
  | .error e => .failed c.sessionId (failure c.sessionId e).message

end Completion

/-- **A batch made of outcomes in the order in which they came.** -/
def collect (completed : List Completion) : Outcome :=
  -- Sorting is stable: of one session's outcomes the earlier stays in front.
  let breakdowns := (completed.filterMap Completion.breakdown?).mergeSort fun a b =>
    a.sessionId ≤ b.sessionId
  let failures := (completed.filterMap Completion.failure?).mergeSort fun a b =>
    a.sessionId ≤ b.sessionId
  { breakdowns, failures
    statistics := .ofBreakdowns breakdowns failures.length
    progress := completed.map Completion.progress
    total := completed.length }

/-- **A batch whose sessions finish in the order in which they were given.** -/
def run (settings : ScoringSettings) (sessions : List Session) : Outcome :=
  collect (outcomes settings sessions)

/-- The report of a batch. -/
def Outcome.report (outcome : Outcome) (settings : ScoringSettings) (id : Uuid)
    (createdAt : Timestamp) (durationMs : Nat) : Report where
  id := id
  createdAt := createdAt
  settings := settings
  breakdowns := outcome.breakdowns
  failures := outcome.failures
  statistics := outcome.statistics
  durationMs := durationMs

end Scoresheet.Batch
