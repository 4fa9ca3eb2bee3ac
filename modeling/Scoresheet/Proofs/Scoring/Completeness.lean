import Scoresheet.Proofs.Scoring.Engine
import Scoresheet.Proofs.Scoring.Statistics

/-!
# Complete breakdowns and totals

A breakdown is complete if no answer failed and the total has not overflowed, and the statistics of
a batch count the complete ones. They summarize the totals, though, and a complete breakdown need
not have one: nothing has no mean, no least and no greatest value, so that a session without answers
is complete and has no total. There is no other such session.

* `Breakdown.isVacant` — the breakdowns that are complete and have no total.
* `Breakdown.isComplete_fold` — a breakdown is complete if it has a total or is vacant.
* `Statistics.sum_sessions_perCategory` — the totals of all kinds of respondents, counted.
* `complete_counts_totals` — the complete breakdowns of a batch against its totals.
* `not_forall_isComplete_iff_total` — that a complete breakdown does not always have a total.
-/

namespace Scoresheet

/-- Nothing has no aggregate, unless it is added up. -/
theorem Aggregation.aggregate?_eq_none_iff {aggregation : Aggregation} {values : List Float} :
    aggregation.aggregate? values = none ↔ values = [] ∧ aggregation ≠ .sum := by
  cases aggregation <;> cases values <;> simp [aggregate?]

/-! ### One breakdown -/

namespace Breakdown

/-- **Whether a breakdown is vacant:** there is no answer, and nothing has no aggregate. -/
def isVacant (b : Breakdown) : Bool :=
  b.entries.isEmpty && decide (b.aggregation ≠ .sum)

theorem isVacant_eq_true_iff {b : Breakdown} :
    b.isVacant = true ↔ b.entries = [] ∧ b.aggregation ≠ .sum := by
  simp [isVacant]

variable {sessionId : Int64} {respondent : Respondent} {aggregation : Aggregation}
  {entries : List Entry}

/-- Where no entry has failed, there are no values only if there are no entries. -/
theorem scoredValues_eq_nil_iff (h : failedCount entries = 0) :
    scoredValues entries = [] ↔ entries = [] := by
  refine ⟨fun hvalues => List.eq_nil_iff_forall_not_mem.2 fun entry hentry => ?_, ?_⟩
  · have hvalue := List.filterMap_eq_nil_iff.1 hvalues entry hentry
    have hscored := List.countP_eq_zero.1 h entry hentry
    rw [hvalue] at hscored
    exact hscored rfl
  · rintro rfl
    rfl

/-- **A breakdown is complete** if it has a total or is vacant. -/
theorem isComplete_fold :
    (fold sessionId respondent aggregation entries).isComplete =
      ((fold sessionId respondent aggregation entries).total.isSome ||
        (fold sessionId respondent aggregation entries).isVacant) := by
  unfold isComplete isVacant fold
  by_cases hfailed : failedCount entries = 0
  · cases haggregate : aggregation.aggregate? (scoredValues entries) with
    | none =>
      -- No aggregate of values that are all there: nothing was answered.
      obtain ⟨hvalues, haggregation⟩ := Aggregation.aggregate?_eq_none_iff.1 haggregate
      obtain rfl := (scoredValues_eq_nil_iff hfailed).1 hvalues
      simp [hfailed, haggregation]
    | some t =>
      have hvacant : entries ≠ [] ∨ aggregation = .sum := by
        have hsome : ¬ (scoredValues entries = [] ∧ aggregation ≠ .sum) := by
          rw [← Aggregation.aggregate?_eq_none_iff, haggregate]
          exact Option.some_ne_none t
        rw [scoredValues_eq_nil_iff hfailed] at hsome
        tauto
      cases hfinite : t.isFinite <;> rcases hvacant with hvacant | hvacant <;>
        simp [hfailed, finite?, hfinite, hvacant]
  · have hentries : entries ≠ [] := by
      rintro rfl
      exact hfailed rfl
    have hsome : (failedCount entries == 0) = false := beq_eq_false_iff_ne.2 hfailed
    have hanswered : entries.isEmpty = false := List.isEmpty_eq_false_iff.2 hentries
    simp only [hsome, hanswered, if_neg hfailed, Option.bind_none, Option.isSome_none,
      Bool.false_and, Bool.or_self]

/-- A vacant breakdown has no total. -/
theorem total_of_isVacant (h : (fold sessionId respondent aggregation entries).isVacant = true) :
    (fold sessionId respondent aggregation entries).total = none := by
  obtain ⟨hentries, haggregation⟩ := isVacant_eq_true_iff.1 h
  -- Without entries nothing is aggregated, and only a sum has a value then.
  have hvalues : scoredValues entries = [] := by
    rw [show entries = [] from hentries]
    rfl
  have haggregate : aggregation.aggregate? (scoredValues entries) = none :=
    Aggregation.aggregate?_eq_none_iff.2 ⟨hvalues, haggregation⟩
  unfold fold
  rw [haggregate]
  dsimp only
  rw [ite_self, Option.bind_none]

end Breakdown

/-- A breakdown with a finite total has a total, and conversely. -/
theorem Breakdown.isSome_total_fold {sessionId : Int64} {respondent : Respondent}
    {aggregation : Aggregation} {entries : List Entry} :
    (fold sessionId respondent aggregation entries).total.isSome = true ↔
      ∃ x, (fold sessionId respondent aggregation entries).total = some x ∧
        x.isFinite = true := by
  rw [Option.isSome_iff_exists]
  exact exists_congr fun x => ⟨fun h => ⟨h, isFinite_total_fold h⟩, And.left⟩

/-! ### The breakdowns of a batch -/

/-- Breakdowns that are complete have a total or are vacant, and not both. -/
theorem countP_isComplete {breakdowns : List Breakdown} (hfold : ∀ b ∈ breakdowns,
      b = Breakdown.fold b.sessionId b.respondent b.aggregation b.entries) :
    breakdowns.countP Breakdown.isComplete
      = breakdowns.countP (fun b => b.total.isSome) + breakdowns.countP Breakdown.isVacant := by
  -- By induction on the breakdowns. One that is complete has a total or is vacant, and never both.
  induction breakdowns with
  | nil => rfl
  | cons b rest ih =>
    obtain ⟨hb, hrest⟩ := List.forall_mem_cons.1 hfold
    have hcomplete : b.isComplete = (b.total.isSome || b.isVacant) := by
      rw [hb]
      exact Breakdown.isComplete_fold
    have htotal : b.isVacant = true → b.total = none := by
      rw [hb]
      exact Breakdown.total_of_isVacant
    rw [List.countP_cons, List.countP_cons, List.countP_cons, ih hrest, hcomplete]
    cases hvacant : b.isVacant with
    | false => simp; omega
    | true => simp [htotal hvacant]; omega

namespace Statistics

/-- A breakdown with a total adds one to the totals that are kept. -/
theorem sum_length_addTotal (totals : Index Respondent (List Float)) (b : Breakdown) :
    ((addTotal totals b).entries.map fun e => e.2.length).sum
      = (totals.entries.map fun e => e.2.length).sum + if b.total.isSome then 1 else 0 := by
  unfold addTotal
  cases b.total with
  | none => rfl
  | some total =>
    exact Index.sum_alterEntries (length_withTotal total) totals.entries

/-- **The totals of all kinds of respondents** are those of the breakdowns. -/
theorem sum_sessions_perCategory (breakdowns : List Breakdown) (failed : ℕ) :
    ((ofBreakdowns breakdowns failed).perCategory.entries.map fun e => e.2.sessions).sum
      = breakdowns.countP fun b => b.total.isSome := by
  have hsessions : ((ofBreakdowns breakdowns failed).perCategory.entries.map fun e =>
      e.2.sessions) = (breakdowns.foldl addTotal ∅).entries.map fun e => e.2.length :=
    List.map_map
  rw [hsessions]
  exact Index.sum_foldl sum_length_addTotal breakdowns

/-- **The totals have a summary** if there are any. -/
theorem isSome_totals_iff (breakdowns : List Breakdown) (failed : ℕ) :
    (ofBreakdowns breakdowns failed).totals.isSome = true ↔
      0 < breakdowns.countP fun b => b.total.isSome := by
  have hsome : ∀ totals, (TotalSummary.ofTotals? totals).isSome = true ↔ 0 < totals.length := by
    rintro (_ | _) <;> simp [TotalSummary.ofTotals?]
  show (TotalSummary.ofTotals? (breakdowns.filterMap Breakdown.total)).isSome = true ↔ _
  rw [hsome, List.length_filterMap_eq_countP]

end Statistics

theorem score_eq_fold {settings : ScoringSettings} {session : Session} {b : Breakdown}
    (h : score settings session = .ok b) :
    b = Breakdown.fold b.sessionId b.respondent b.aggregation b.entries := by
  rw [eq_recorded_of_score h]
  rfl

/-- The breakdown of a session is vacant if there is no answer, and nothing has no aggregate. -/
theorem isVacant_of_score {settings : ScoringSettings} {session : Session} {b : Breakdown}
    (h : score settings session = .ok b) :
    b.isVacant = true ↔ session.answers = [] ∧ settings.aggregation ≠ .sum := by
  rw [eq_recorded_of_score h, Breakdown.isVacant_eq_true_iff]
  exact and_congr_left' List.map_eq_nil_iff

/-- **Complete breakdowns and totals.** Under either policy and with every aggregation, the
breakdown of a session is complete if it has a finite total, or if the session has no answers and
the aggregation is not the sum; and then it has no total. So the complete breakdowns of a batch are
those that have a total and those that are vacant, while the sessions of all kinds of respondents
are those that have a total, and the totals have a summary if there is any. -/
theorem complete_counts_totals {breakdowns : List Breakdown}
    (hscored : ∀ b ∈ breakdowns, ∃ settings session, score settings session = .ok b)
    (failed : ℕ) :
    (∀ b ∈ breakdowns, ∀ settings session, score settings session = .ok b →
      (b.isComplete = true ↔ (∃ x, b.total = some x ∧ x.isFinite = true) ∨
        (session.answers = [] ∧ settings.aggregation ≠ .sum)) ∧
      (session.answers = [] ∧ settings.aggregation ≠ .sum → b.total = none)) ∧
    (Statistics.ofBreakdowns breakdowns failed).complete
      = breakdowns.countP (fun b => b.total.isSome) + breakdowns.countP Breakdown.isVacant ∧
    ((Statistics.ofBreakdowns breakdowns failed).perCategory.entries.map fun e =>
      e.2.sessions).sum = breakdowns.countP (fun b => b.total.isSome) ∧
    ((Statistics.ofBreakdowns breakdowns failed).totals.isSome = true ↔
      0 < breakdowns.countP fun b => b.total.isSome) := by
  refine ⟨fun b _ settings session hscore => ?_, countP_isComplete fun b hb => ?_,
    Statistics.sum_sessions_perCategory breakdowns failed,
    Statistics.isSome_totals_iff breakdowns failed⟩
  -- Of one breakdown: it is complete with a total, or vacant because the session has no answers.
  · have hvacant := isVacant_of_score hscore
    rw [← hvacant, score_eq_fold hscore]
    refine ⟨?_, Breakdown.total_of_isVacant⟩
    rw [Breakdown.isComplete_fold, Bool.or_eq_true, Breakdown.isSome_total_fold]
  · obtain ⟨settings, session, hscore⟩ := hscored b hb
    exact score_eq_fold hscore

/-- A session without answers, one of whose answers fails, and one with a mean, in one batch: two of
the three are complete, and one has a total. -/
theorem complete_counts_totals_mean :
    let answer : String → Answer := fun formula => ⟨⟨1, "", formula, ⟨1, ""⟩⟩, []⟩
    let failing : Session := { Batch.emptySession 2 with answers := [answer "1 / 0"] }
    let scored : Session := { Batch.emptySession 3 with answers := [answer "1", answer "2"] }
    let breakdowns := [Batch.emptySession 1, failing, scored].map (recorded .mean)
    let statistics := Statistics.ofBreakdowns breakdowns 0
    (recorded .mean (Batch.emptySession 1)).isComplete = true ∧
      (recorded .mean (Batch.emptySession 1)).total = none ∧
      (recorded .mean scored).isComplete = true ∧
      (∀ b ∈ breakdowns, ∃ settings session, score settings session = .ok b) ∧
      statistics.complete = 2 ∧
      (statistics.perCategory.entries.map fun e => e.2.sessions).sum = 1 ∧
      statistics.totals.isSome = true := by
  intro answer failing scored breakdowns statistics
  -- The first session is the vacant one, and the others keep the counts apart.
  have hvacant : (Batch.emptySession 1).answers = [] ∧ Aggregation.mean ≠ .sum :=
    ⟨rfl, by decide⟩
  have hscored : ∀ b ∈ breakdowns, ∃ settings session, score settings session = .ok b :=
    List.forall_mem_map.2 fun session _ => ⟨⟨.record, .mean⟩, session, rfl⟩
  have hmean : (recorded .mean scored).total.isSome = true := by decide +kernel
  have htotals : breakdowns.countP (fun b => b.total.isSome) = 1 := by decide +kernel
  have hvacants : breakdowns.countP Breakdown.isVacant = 1 := by decide +kernel
  obtain ⟨hbreakdown, hcount, hsessions, hsummary⟩ := complete_counts_totals hscored 0
  rw [htotals] at hcount hsessions hsummary
  rw [hvacants] at hcount
  obtain ⟨hcomplete, htotal⟩ := hbreakdown (recorded .mean (Batch.emptySession 1))
    List.mem_cons_self ⟨.record, .mean⟩ (Batch.emptySession 1) rfl
  obtain ⟨hcomplete', -⟩ := hbreakdown (recorded .mean scored) (by simp [breakdowns])
    ⟨.record, .mean⟩ scored rfl
  exact ⟨hcomplete.2 (.inr hvacant), htotal hvacant,
    hcomplete'.2 (.inl (Breakdown.isSome_total_fold.1 hmean)), hscored, hcount, hsessions,
    hsummary.2 Nat.one_pos⟩

/-- **A complete breakdown does not always have a total:** nothing has no mean. -/
theorem not_forall_isComplete_iff_total :
    ¬ ∀ (settings : ScoringSettings) (session : Session) (b : Breakdown),
      score settings session = .ok b →
        (b.isComplete = true ↔ ∃ x, b.total = some x ∧ x.isFinite = true) := by
  intro hiff
  have hscore : score ⟨.abort, .mean⟩ (Batch.emptySession 1)
      = .ok (recorded .mean (Batch.emptySession 1)) := rfl
  obtain ⟨x, htotal, -⟩ := (hiff _ _ _ hscore).1 rfl
  cases htotal

end Scoresheet
