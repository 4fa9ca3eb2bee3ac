import Scoresheet.Scoring.Breakdown

/-!
# Statistics of a batch

Counts and means over the breakdowns of a batch: of the totals, of each question's subtotals, and of
the totals of each kind of respondent.

* `Statistics.ofBreakdowns` — the statistics of a list of breakdowns.
-/

namespace Scoresheet

/-- The mean, the least and the greatest total. -/
structure TotalSummary where
  mean : Float
  min : Float
  max : Float
deriving BEq

/-- The scored answers of one question in all sessions, and the mean of the sessions' subtotals. -/
structure QuestionStatistics where
  question : String
  answers : Nat
  mean : Float
deriving BEq

/-- The sessions of one kind of respondent that have a total, and the mean of their totals. -/
structure CategoryStatistics where
  sessions : Nat
  meanTotal : Float
deriving BEq

/-- The statistics of a batch. -/
structure Statistics where
  sessions : Nat
  complete : Nat
  /-- Sessions with a breakdown that is not complete. -/
  incomplete : Nat
  /-- Sessions without a breakdown. -/
  failed : Nat
  totals : Option TotalSummary
  perQuestion : Index Int64 QuestionStatistics
  perCategory : Index Respondent CategoryStatistics
deriving BEq

/-- The summary of a list of totals, if it has one. -/
def TotalSummary.ofTotals? : List Float → Option TotalSummary
  | [] => none
  | totals => some
    { mean := Scoresheet.mean totals
      -- The infinities give way to every total.
      min := totals.foldl Formula.lesser (1.0 / 0.0)
      max := totals.foldl Formula.greater (-1.0 / 0.0) }

/-- What is known of a question while the sessions are gone through: its name, its scored answers,
and the sessions' subtotals, the latest first. -/
structure QuestionTally where
  question : String
  answers : Nat
  subtotals : List Float

namespace QuestionTally

/-- A tally with one more subtotal. The first brings the question's name. -/
def add (subtotal : Subtotal) (old : Option QuestionTally) : QuestionTally :=
  let tally := old.getD ⟨subtotal.question, 0, []⟩
  { tally with
    answers := tally.answers + subtotal.answers
    subtotals := subtotal.value :: tally.subtotals }

/-- The tallies with the subtotals of one more session. Those that are not finite are left out. -/
def addBreakdown (tallies : Index Int64 QuestionTally) (b : Breakdown) :
    Index Int64 QuestionTally :=
  b.byQuestion.entries.foldl (fun tallies entry =>
    if entry.2.value.isFinite then tallies.alter entry.1 (add entry.2) else tallies) tallies

/-- The statistics of a question. -/
def statistics (tally : QuestionTally) : QuestionStatistics :=
  ⟨tally.question, tally.answers, mean tally.subtotals.reverse⟩

end QuestionTally

/-- The totals of each kind of respondent, the latest first, with one more breakdown. -/
def addTotal (totals : Index Respondent (List Float)) (b : Breakdown) :
    Index Respondent (List Float) :=
  match b.total with
  | some total => totals.alter b.respondent fun old => total :: old.getD []
  | none => totals

/-- The statistics of the totals of one kind of respondent. -/
def CategoryStatistics.ofTotals (totals : List Float) : CategoryStatistics :=
  ⟨totals.length, mean totals.reverse⟩

/-- **The statistics of a list of breakdowns** and of `failed` sessions without one. -/
def Statistics.ofBreakdowns (breakdowns : List Breakdown) (failed : Nat) : Statistics :=
  let complete := breakdowns.countP Breakdown.isComplete
  { sessions := breakdowns.length + failed
    complete
    incomplete := breakdowns.length - complete
    failed
    totals := TotalSummary.ofTotals? (breakdowns.filterMap Breakdown.total)
    perQuestion :=
      (breakdowns.foldl QuestionTally.addBreakdown ∅).mapValues QuestionTally.statistics
    perCategory := (breakdowns.foldl addTotal ∅).mapValues CategoryStatistics.ofTotals }

end Scoresheet
