import Scoresheet.Proofs.Formula.FiniteStack
import Scoresheet.Proofs.Scoring.Policies
import Scoresheet.Proofs.Scoring.Statistics

/-!
# Scores are finite

A float that is not finite gets in at no place between the tokens of a formula and the breakdown of
a session. The stack machine lets none onto its stack, so that no answer is scored with one. The
totals are sums, means or choices of finite scores, which may well overflow; a total that does is
withheld.

* `Answer.isFinite_of_evaluate` — the value of an answer is finite.
* `Breakdown.FiniteScores` — the breakdowns whose scores and totals are all finite.
* `finite_on_stack_and_in_scores` — from every token sequence to every breakdown.
-/

namespace Scoresheet

open Formula

/-- The value of an answer is finite. -/
theorem Answer.isFinite_of_evaluate {answer : Answer} {value : Float}
    (h : answer.evaluate = .ok value) : value.isFinite = true := by
  -- Whatever the stages before make of the formula, its value is that of a postfix sequence.
  obtain ⟨bindings, -, h⟩ := bind_eq_ok_iff.1 h
  obtain ⟨tokens, -, h⟩ := bind_eq_ok_iff.1 h
  obtain ⟨substituted, -, h⟩ := bind_eq_ok_iff.1 h
  obtain ⟨postfixed, -, h⟩ := bind_eq_ok_iff.1 h
  exact isFinite_of_evaluatePostfix h

/-- An answer that is scored has a value. -/
theorem Answer.evaluate_of_scored {answer : Answer} {value : Float}
    (h : answer.entry.outcome = .scored value) : answer.evaluate = .ok value := by
  change Outcome.ofResult answer.evaluate = .scored value at h
  cases hvalue : answer.evaluate with
  | ok x =>
    rw [hvalue] at h
    rw [Outcome.scored.inj h]
  | error cause =>
    rw [hvalue] at h
    cases h

/-- **The breakdowns whose scores and totals are all finite.** -/
structure Breakdown.FiniteScores (b : Breakdown) : Prop where
  scored : ∀ entry ∈ b.entries, ∀ value, entry.outcome = .scored value → value.isFinite = true
  total : ∀ value, b.total = some value → value.isFinite = true
  partialTotal : ∀ value, b.partialTotal = some value → value.isFinite = true

/-- The recorded breakdown of a session has finite scores and totals. -/
theorem finiteScores_recorded (aggregation : Aggregation) (session : Session) :
    (recorded aggregation session).FiniteScores where
  scored := by
    intro entry hentry value hscored
    obtain ⟨answer, -, rfl⟩ := List.mem_map.1 hentry
    exact Answer.isFinite_of_evaluate (Answer.evaluate_of_scored hscored)
  total _ h := Breakdown.isFinite_total_fold h
  partialTotal _ h := isFinite_of_finite? h

/-- **No float that is not finite gets through.** Whatever the tokens of a sequence are, its run
never looks for an argument past the end, each builtin is applied to as many finite numbers as it
takes, the stack holds finite numbers after each of the tokens, and a value that comes out is
finite. So are all scores and totals of every breakdown, under either policy and with every
aggregation. -/
theorem finite_on_stack_and_in_scores :
    (∀ tokens : List Token,
      (∃ applications, runNoting? [] tokens = some (applications, runFrom [] tokens) ∧
        ∀ a ∈ applications, a.arguments.length = a.builtin.arity ∧ FiniteStack a.arguments) ∧
      (∀ before stack, before <+: tokens → runFrom [] before = .ok stack → FiniteStack stack) ∧
      ∀ value, evaluatePostfix tokens = .ok value → value.isFinite = true) ∧
    ∀ (settings : ScoringSettings) (session : Session) (b : Breakdown),
      score settings session = .ok b → b.FiniteScores := by
  -- The machine, its stack, its value, and at last the scores that come of its values.
  refine ⟨fun tokens => ⟨?_, ?_, ?_⟩, ?_⟩
  · obtain ⟨applications, hrun, hproper⟩ := runNoting?_eq finiteStack_nil tokens
    exact ⟨applications, hrun, fun a ha => ⟨(hproper a ha).length, (hproper a ha).finite⟩⟩
  · intro before stack _ hrun
    exact finiteStack_nil.runFrom hrun
  · intro value hvalue
    exact isFinite_of_evaluatePostfix hvalue
  · intro settings session b hscore
    rw [eq_recorded_of_score hscore]
    exact finiteScores_recorded settings.aggregation session

/-- A maximum, with the stack before it, and a session in which one of two answers fails. -/
theorem finite_on_stack_and_in_scores_maximum :
    let tokens : List Token := [.number 1.0, .number 2.0, .function "max" 2]
    let session : Session := {
      id := 1
      dateTime := ⟨⟨2024, 2, 29, by decide, by decide, by decide⟩, 0, 0, 0, 0,
        by decide, by decide, by decide, by decide⟩
      answers := [⟨⟨2, "", "a + 1", ⟨1, ""⟩⟩, [⟨⟨none, "a"⟩, 0.5⟩]⟩,
        ⟨⟨3, "", "1 / 0", ⟨1, ""⟩⟩, []⟩]
      isKid := false
      seminarAccessCode := none }
    (∃ applications, runNoting? [] tokens = some (applications, .ok [2.0]) ∧
      ∀ a ∈ applications, a.arguments.length = a.builtin.arity ∧ FiniteStack a.arguments) ∧
    (tokens.take 2 <+: tokens ∧ runFrom [] (tokens.take 2) = .ok [2.0, 1.0] ∧
      FiniteStack [2.0, 1.0]) ∧
    (evaluatePostfix tokens = .ok 2.0 ∧ (2.0 : Float).isFinite = true) ∧
    (score ⟨.record, .sum⟩ session = .ok (recorded .sum session) ∧
      (recorded .sum session).FiniteScores) := by
  intro tokens session
  obtain ⟨hmachine, hscores⟩ := finite_on_stack_and_in_scores
  obtain ⟨hrun, hstack, hvalue⟩ := hmachine tokens
  -- The run is a closed computation, before and after the call.
  have hlast : runFrom [] tokens = .ok [2.0] := by rfl
  have hbefore : runFrom [] (tokens.take 2) = .ok [2.0, 1.0] := by rfl
  have hmaximum : evaluatePostfix tokens = .ok 2.0 := by rfl
  have hfirst : tokens.take 2 <+: tokens := List.take_prefix 2 tokens
  have hscore : score ⟨.record, .sum⟩ session = .ok (recorded .sum session) :=
    score_record .sum session
  rw [hlast] at hrun
  exact ⟨hrun, ⟨hfirst, hbefore, hstack _ _ hfirst hbefore⟩, ⟨hmaximum, hvalue _ hmaximum⟩,
    hscore, hscores _ session _ hscore⟩

end Scoresheet
