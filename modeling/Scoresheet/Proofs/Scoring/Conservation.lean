import Scoresheet.Proofs.Scoring.Completeness
import Scoresheet.Proofs.Scoring.Questions

/-!
# What the statistics of a batch count

The statistics regroup what the breakdowns of a batch hold: sessions by what became of them, totals
by kinds of respondents, scored answers by questions. Sessions without a total are left out of some
of these, and so are subtotals that are not finite. Whatever is not left out is counted once, under
its own key, in whatever order the breakdowns come.

* `Statistics.Counts` — all that statistics count, without the means.
* `Statistics.Conserves` — the counts agree with the breakdowns and with one another.
* `Statistics.answers_perQuestion`, `Statistics.sessions_perCategory` — the counts under one key.
* `Statistics.counts_eq_of_perm` — the counts do not depend on the order of the breakdowns.
* `Statistics.conserves_ofBreakdowns` — the statistics of a batch count what is there.

The means are no part of this: floats are added in the order of the breakdowns, and another order
may round differently.
-/

namespace Scoresheet

/-! ### What a breakdown brings under one key -/

theorem isSome_categoryTotal?_iff {respondent : Respondent} {b : Breakdown} :
    (categoryTotal? respondent b).isSome = true ↔
      b.respondent = respondent ∧ b.total.isSome = true := by
  unfold categoryTotal?
  split <;> simp [*]

/-- Whether the scored values of a question add up to a finite subtotal. -/
def Breakdown.hasFiniteSum (question : Int64) (b : Breakdown) : Bool :=
  (b.scoredSum question).isFinite

theorem isSome_finiteSubtotal?_iff {question : Int64} {b : Breakdown} :
    (finiteSubtotal? question b).isSome = true ↔
      b.scoredOf question ≠ [] ∧ b.hasFiniteSum question = true := by
  unfold finiteSubtotal? Breakdown.hasFiniteSum
  rw [← Subtotal.isSome_ofScored?_iff, ← Breakdown.find?_byQuestion]
  cases hfind : b.byQuestion.find? question with
  | none => simp
  | some subtotal =>
    rw [Option.filter_some, ← Breakdown.value_of_find?_byQuestion hfind]
    cases subtotal.value.isFinite <;> simp

/-- A finite subtotal stands for all scored entries of its question. -/
theorem answers_of_finiteSubtotal? {question : Int64} {b : Breakdown} {subtotal : Subtotal}
    (h : finiteSubtotal? question b = some subtotal) :
    subtotal.answers = (b.scoredOf question).length := by
  obtain ⟨hfind, -⟩ := Option.filter_eq_some_iff.1 h
  rw [Breakdown.find?_byQuestion] at hfind
  exact (Subtotal.tells_of_ofScored? hfind).answers

/-- The answers of all finite subtotals of a question are the scored entries of the breakdowns that
have one. -/
theorem sum_answers_finiteSubtotal? (question : Int64) (breakdowns : List Breakdown) :
    ((breakdowns.filterMap (finiteSubtotal? question)).map Subtotal.answers).sum
      = ((breakdowns.filter (Breakdown.hasFiniteSum question)).map fun b =>
        (b.scoredOf question).length).sum := by
  -- By induction on the breakdowns, of which each brings a subtotal or has nothing to be counted.
  induction breakdowns with
  | nil => rfl
  | cons b rest ih =>
    cases hsubtotal : finiteSubtotal? question b with
    | some subtotal =>
      have hfinite := (isSome_finiteSubtotal?_iff.1 (Option.isSome_of_eq_some hsubtotal)).2
      rw [List.filterMap_cons_some hsubtotal, List.filter_cons_of_pos hfinite, List.map_cons,
        List.map_cons, List.sum_cons, List.sum_cons, ih, answers_of_finiteSubtotal? hsubtotal]
    | none =>
      rw [List.filterMap_cons_none hsubtotal, ih]
      by_cases hfinite : b.hasFiniteSum question = true
      · -- A finite sum is left out only if there is no scored entry to be counted.
        have hempty : b.scoredOf question = [] := by
          by_contra hscored
          have hsome := isSome_finiteSubtotal?_iff.2 ⟨hscored, hfinite⟩
          rw [hsubtotal] at hsome
          cases hsome
        rw [List.filter_cons_of_pos hfinite, List.map_cons, List.sum_cons, hempty,
          List.length_nil, Nat.zero_add]
      · rw [List.filter_cons_of_neg hfinite]

namespace Statistics

/-! ### The counts under one key -/

/-- **The answers of a question** are those of its finite subtotals, if there are any. -/
theorem answers_perQuestion (breakdowns : List Breakdown) (failed : ℕ) (question : Int64) :
    ((ofBreakdowns breakdowns failed).perQuestion.find? question).map QuestionStatistics.answers
      = if breakdowns.filterMap (finiteSubtotal? question) = [] then none
        else some ((breakdowns.filterMap (finiteSubtotal? question)).map Subtotal.answers).sum := by
  -- A subtotal adds its answers to those that are there, whatever else it changes.
  have hchange (s : Subtotal) (old : Option QuestionTally) :
      (QuestionTally.add s old).answers = old.elim 0 QuestionTally.answers + s.answers := by
    cases old <;> rfl
  have hpass := Index.find?_foldl (QuestionTally.find?_addBreakdown question) breakdowns ∅
  rw [← Index.map_foldl_change hchange]
  show (((breakdowns.foldl QuestionTally.addBreakdown ∅).mapValues
    QuestionTally.statistics).find? question).map QuestionStatistics.answers = _
  rw [Index.find?_mapValues, Option.map_map, hpass]
  rfl

/-- **The sessions of a kind of respondent** are those that have a total, if there are any. -/
theorem sessions_perCategory (breakdowns : List Breakdown) (failed : ℕ) (respondent : Respondent) :
    ((ofBreakdowns breakdowns failed).perCategory.find? respondent).map CategoryStatistics.sessions
      = if breakdowns.filterMap (categoryTotal? respondent) = [] then none
        else some (breakdowns.filterMap (categoryTotal? respondent)).length := by
  -- The pass over all breakdowns, seen at one respondent, is a pass over the totals that are
  -- theirs.
  have hpass := Index.find?_foldl (find?_addTotal respondent) breakdowns ∅
  have hlength := Index.map_foldl_change length_withTotal
    (breakdowns.filterMap (categoryTotal? respondent))
  rw [List.map_const', List.sum_replicate, smul_eq_mul, mul_one] at hlength
  rw [← hlength]
  show (((breakdowns.foldl addTotal ∅).mapValues CategoryStatistics.ofTotals).find?
    respondent).map CategoryStatistics.sessions = _
  rw [Index.find?_mapValues, Option.map_map, hpass]
  rfl

/-- The questions with statistics are those with a finite subtotal. -/
theorem mem_keys_perQuestion {breakdowns : List Breakdown} {failed : ℕ} {question : Int64} :
    question ∈ (ofBreakdowns breakdowns failed).perQuestion.keys ↔
      ∃ b ∈ breakdowns, b.scoredOf question ≠ [] ∧ b.hasFiniteSum question = true := by
  have hkeys : (ofBreakdowns breakdowns failed).perQuestion.keys
      = (breakdowns.foldl QuestionTally.addBreakdown ∅).keys :=
    Index.keys_mapValues _ _
  rw [hkeys, Index.mem_keys_foldl (QuestionTally.find?_addBreakdown question)]
  simp only [isSome_finiteSubtotal?_iff]

/-- The kinds of respondents with statistics are those with a total. -/
theorem mem_keys_perCategory {breakdowns : List Breakdown} {failed : ℕ} {respondent : Respondent} :
    respondent ∈ (ofBreakdowns breakdowns failed).perCategory.keys ↔
      ∃ b ∈ breakdowns, b.respondent = respondent ∧ b.total.isSome = true := by
  have hkeys : (ofBreakdowns breakdowns failed).perCategory.keys
      = (breakdowns.foldl addTotal ∅).keys :=
    Index.keys_mapValues _ _
  rw [hkeys, Index.mem_keys_foldl (find?_addTotal respondent)]
  simp only [isSome_categoryTotal?_iff]

/-! ### All counts -/

/-- **All that statistics count,** without the means. -/
structure Counts where
  sessions : ℕ
  complete : ℕ
  incomplete : ℕ
  failed : ℕ
  /-- Whether the totals have a summary. -/
  summarized : Bool
  answersOf : Index Int64 ℕ
  sessionsOf : Index Respondent ℕ

/-- The counts of the statistics of a batch. -/
def counts (s : Statistics) : Counts where
  sessions := s.sessions
  complete := s.complete
  incomplete := s.incomplete
  failed := s.failed
  summarized := s.totals.isSome
  answersOf := s.perQuestion.mapValues QuestionStatistics.answers
  sessionsOf := s.perCategory.mapValues CategoryStatistics.sessions

/-- **Statistics count the breakdowns of a batch** and a number of sessions without one. -/
structure Conserves (s : Statistics) (breakdowns : List Breakdown) (failed : ℕ) : Prop where
  sessions_eq : s.sessions = breakdowns.length + failed
  sessions_eq_add : s.sessions = s.complete + s.incomplete + s.failed
  complete_eq : s.complete = breakdowns.countP Breakdown.isComplete
  incomplete_eq : s.incomplete = breakdowns.countP fun b => !b.isComplete
  failed_eq : s.failed = failed
  totals_iff : s.totals.isSome = true ↔ ∃ b ∈ breakdowns, b.total.isSome = true
  category_iff : ∀ respondent, respondent ∈ s.perCategory.keys ↔
    ∃ b ∈ breakdowns, b.respondent = respondent ∧ b.total.isSome = true
  sessionsOf_eq : ∀ respondent category, s.perCategory.find? respondent = some category →
    category.sessions = breakdowns.countP fun b => b.respondent = respondent ∧ b.total.isSome
  sum_sessionsOf : (s.perCategory.entries.map fun e => e.2.sessions).sum
    = breakdowns.countP fun b => b.total.isSome
  question_iff : ∀ question, question ∈ s.perQuestion.keys ↔
    ∃ b ∈ breakdowns, b.scoredOf question ≠ [] ∧ b.hasFiniteSum question = true
  /-- All scored entries of a question are counted, in all breakdowns where they add up to a finite
  subtotal and in no others. -/
  answersOf_eq : ∀ question statistics, s.perQuestion.find? question = some statistics →
    statistics.answers = ((breakdowns.filter (Breakdown.hasFiniteSum question)).map fun b =>
      (b.scoredOf question).length).sum

/-- **The counts do not depend on the order** of the breakdowns. -/
theorem counts_eq_of_perm {breakdowns breakdowns' : List Breakdown}
    (h : breakdowns.Perm breakdowns') (failed : ℕ) :
    (ofBreakdowns breakdowns failed).counts = (ofBreakdowns breakdowns' failed).counts := by
  have hcomplete := h.countP_eq Breakdown.isComplete
  have hanswers : (ofBreakdowns breakdowns failed).counts.answersOf
      = (ofBreakdowns breakdowns' failed).counts.answersOf := by
    -- The answers of each question are a sum, and a sum does not mind the order.
    refine Index.ext_find? fun question => ?_
    have hsubtotals := h.filterMap (finiteSubtotal? question)
    rw [counts, counts, Index.find?_mapValues, Index.find?_mapValues, answers_perQuestion,
      answers_perQuestion, (hsubtotals.map Subtotal.answers).sum_eq]
    simp only [← List.length_eq_zero_iff, hsubtotals.length_eq]
  have hsessions : (ofBreakdowns breakdowns failed).counts.sessionsOf
      = (ofBreakdowns breakdowns' failed).counts.sessionsOf := by
    -- The sessions of each respondent are as many as their totals.
    refine Index.ext_find? fun respondent => ?_
    have htotals := h.filterMap (categoryTotal? respondent)
    rw [counts, counts, Index.find?_mapValues, Index.find?_mapValues, sessions_perCategory,
      sessions_perCategory]
    simp only [← List.length_eq_zero_iff, htotals.length_eq]
  have hsummarized : (ofBreakdowns breakdowns failed).totals.isSome
      = (ofBreakdowns breakdowns' failed).totals.isSome := by
    rw [Bool.eq_iff_iff, isSome_totals_iff, isSome_totals_iff, h.countP_eq]
  have hparts : (ofBreakdowns breakdowns failed).sessions
        = (ofBreakdowns breakdowns' failed).sessions ∧
      (ofBreakdowns breakdowns failed).incomplete
        = (ofBreakdowns breakdowns' failed).incomplete := by
    simp only [ofBreakdowns, h.length_eq, hcomplete, and_self]
  rw [Counts.mk.injEq]
  exact ⟨hparts.1, hcomplete, hparts.2, rfl, hsummarized, hanswers, hsessions⟩

/-- **The statistics of a batch count what is there.** Every session is complete, incomplete or
failed. The totals have a summary if there are any, and each counts for its own kind of respondent.
Every scored entry counts for its own question, unless the sum of the question's values in its
session is not finite; and there are statistics of no other questions and kinds of respondents. None
of these counts depends on the order of the breakdowns. -/
theorem conserves_ofBreakdowns (breakdowns : List Breakdown) (failed : ℕ) :
    (ofBreakdowns breakdowns failed).Conserves breakdowns failed ∧
      ∀ breakdowns', breakdowns'.Perm breakdowns →
        (ofBreakdowns breakdowns' failed).counts = (ofBreakdowns breakdowns failed).counts := by
  refine ⟨?_, fun breakdowns' h => counts_eq_of_perm h failed⟩
  -- A breakdown is complete or it is not.
  have hsplit : breakdowns.countP Breakdown.isComplete
      + breakdowns.countP (fun b => !b.isComplete) = breakdowns.length := by
    simpa using (List.length_eq_countP_add_countP Breakdown.isComplete (l := breakdowns)).symm
  have hincomplete : (ofBreakdowns breakdowns failed).incomplete
      = breakdowns.countP fun b => !b.isComplete :=
    Nat.sub_eq_of_eq_add' hsplit.symm
  constructor
  case sessions_eq => rfl
  case sessions_eq_add =>
    rw [hincomplete]
    exact congrArg (· + failed) hsplit.symm
  case complete_eq => rfl
  case incomplete_eq => exact hincomplete
  case failed_eq => rfl
  case totals_iff => rw [isSome_totals_iff, List.countP_pos_iff]
  case category_iff => exact fun respondent => mem_keys_perCategory
  -- The sessions of a respondent are those of their breakdowns that have a total.
  case sessionsOf_eq =>
    intro respondent category hfind
    have hcounted := sessions_perCategory breakdowns failed respondent
    rw [hfind, Option.map_some] at hcounted
    split at hcounted
    · cases hcounted
    · rw [Option.some.inj hcounted, List.length_filterMap_eq_countP]
      refine List.countP_congr fun b _ => ?_
      rw [isSome_categoryTotal?_iff, decide_eq_true_iff]
  case sum_sessionsOf => exact sum_sessions_perCategory breakdowns failed
  case question_iff => exact fun question => mem_keys_perQuestion
  -- The answers of a question are counted where its subtotal is finite.
  case answersOf_eq =>
    intro question statistics hfind
    have hcounted := answers_perQuestion breakdowns failed question
    rw [hfind, Option.map_some] at hcounted
    split at hcounted
    · cases hcounted
    · rw [Option.some.inj hcounted, sum_answers_finiteSubtotal?]

end Statistics

end Scoresheet
