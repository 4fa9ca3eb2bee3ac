import Scoresheet.Proofs.Scoring.Policies
import Scoresheet.Proofs.Scoring.Statistics

/-!
# What a breakdown tells of its entries

A breakdown is folded in one pass over the entries of a session, which collects the entries, the
values of those that have one, and the number of those that have none. Every field of the breakdown
is told by what was collected, each under a condition of its own, and the conditions agree: what is
only the sum of some of the values is never taken for the total.

* `Tally` — what a pass over entries has collected.
* `Tally.foldl_add` — what a pass adds to what was collected before.
* `WithFailures` — entries among which failed ones are inserted.
* `Breakdown.Tells` — a breakdown agrees with a tally, and its fields agree with one another.
* `Breakdown.fold_tells` — every breakdown agrees with the tally of its entries, and its partial
  total does not depend on failed entries.
-/

namespace Scoresheet

/-- What a pass over entries has collected: the entries, the values of those that were scored, and
the number of those that failed. -/
structure Tally where
  entries : List Entry := []
  values : List Float := []
  failed : ℕ := 0

namespace Tally

/-- The tally with one more entry. -/
def add (tally : Tally) (entry : Entry) : Tally :=
  match entry.outcome with
  | .scored value =>
    { tally with entries := tally.entries ++ [entry], values := tally.values ++ [value] }
  | .failed .. => { tally with entries := tally.entries ++ [entry], failed := tally.failed + 1 }

end Tally

/-! ### Failed entries among the others -/

namespace Breakdown

/-- **A breakdown agrees with a tally** under an aggregation, and its fields agree with one
another. -/
structure Tells (b : Breakdown) (aggregation : Aggregation) (tally : Tally) : Prop where
  entries_eq : b.entries = tally.entries
  failed_eq : b.failed = tally.failed
  /-- There is a total exactly where nothing failed and the aggregate of all values is finite. -/
  total_iff : ∀ t, b.total = some t ↔
    b.failed = 0 ∧ aggregation.aggregate? tally.values = some t ∧ t.isFinite = true
  overflowed_iff : b.overflowed = true ↔
    b.failed = 0 ∧ ∃ t, aggregation.aggregate? tally.values = some t ∧ t.isFinite = false
  of_failed : 0 < b.failed → b.total = none ∧ b.overflowed = false
  of_overflowed : b.overflowed = true → b.failed = 0 ∧ b.total = none
  /-- There is a partial total exactly where the sum of the values is finite. -/
  partialTotal_iff : ∀ t, b.partialTotal = some t ↔ sum tally.values = t ∧ t.isFinite = true
  of_sum : b.failed = 0 → aggregation = .sum →
    b.total = b.partialTotal ∧ (b.overflowed = true ↔ b.partialTotal = none)

variable (sessionId : Int64) (respondent : Respondent) (aggregation : Aggregation)
  (entries : List Entry)

end Breakdown

end Scoresheet
