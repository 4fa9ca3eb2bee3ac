import Scoresheet.Proofs.Index
import Scoresheet.Proofs.Scoring.Means
import Scoresheet.Scoring.Statistics

/-!
# Statistics that stay in range

A float that is not finite cannot be stored, so that a report can be read back only if its
statistics are finite. The least and the greatest total are totals themselves. The means are finite
if the totals and subtotals leave room for the roundings of a mean, and not always: three times the
greatest float has a mean past it.

* `finiteSubtotal?`, `categoryTotal?` — what a breakdown adds to a question and to a kind of
  respondents.
* `foldl_collects` — what is collected of all breakdowns.
* `TotalSummary.Finite`, `Statistics.Finite` — statistics whose floats are all finite.
* `Statistics.finite_ofBreakdowns` — when they are.
* `Statistics.not_forall_finite` — that they are not always.
-/

namespace Scoresheet

open Decimal

/-! ### What is collected -/

/-- **What is collected of a list,** the latest first, if every step collects what it picks. -/
theorem foldl_collects {σ β α : Type} {step : σ → β → σ} (collected : σ → List α)
    (pick : β → Option α) (h : ∀ s b, collected (step s b) = (pick b).toList ++ collected s)
    (list : List β) (s : σ) :
    collected (list.foldl step s) = (list.filterMap pick).reverse ++ collected s := by
  induction list generalizing s with
  | nil => rfl
  | cons b rest ih =>
    rw [List.foldl_cons, ih, h]
    cases hpick : pick b <;> simp [hpick]

/-- The subtotal of a question in a breakdown, if there is one and it is finite. -/
def finiteSubtotal? (question : Int64) (b : Breakdown) : Option Subtotal :=
  (b.byQuestion.find? question).filter fun s => s.value.isFinite

/-- The total of a breakdown, if it has one and is of a kind of respondent. -/
def categoryTotal? (respondent : Respondent) (b : Breakdown) : Option Float :=
  if b.respondent = respondent then b.total else none

namespace QuestionTally

/-- The subtotals of a question so far, the latest first. -/
def subtotalsOf (question : Int64) (tallies : Index Int64 QuestionTally) : List Float :=
  ((tallies.find? question).map subtotals).getD []

theorem subtotals_add (subtotal : Subtotal) (old : Option QuestionTally) :
    (add subtotal old).subtotals = subtotal.value :: (old.map subtotals).getD [] := by
  cases old <;> rfl

/-- A breakdown changes the tally of a question if it has a finite subtotal of it. -/
theorem find?_addBreakdown (question : Int64) (tallies : Index Int64 QuestionTally)
    (b : Breakdown) :
    (addBreakdown tallies b).find? question
      = (finiteSubtotal? question b).elim (tallies.find? question) fun s =>
        some (add s (tallies.find? question)) :=
  Index.find?_foldl_alter (fun s : Subtotal => s.value.isFinite) add b.byQuestion.nodup_keys
    tallies question

/-- **A breakdown** adds its subtotal of a question, if that is finite. -/
theorem subtotalsOf_addBreakdown (question : Int64) (tallies : Index Int64 QuestionTally)
    (b : Breakdown) :
    subtotalsOf question (addBreakdown tallies b)
      = ((finiteSubtotal? question b).map Subtotal.value).toList
        ++ subtotalsOf question tallies := by
  unfold subtotalsOf
  rw [find?_addBreakdown]
  cases finiteSubtotal? question b with
  | none => rfl
  | some s => simp [subtotals_add]

end QuestionTally

/-- The totals of a kind of respondent so far, the latest first. -/
def totalsOf (respondent : Respondent) (totals : Index Respondent (List Float)) : List Float :=
  (totals.find? respondent).getD []

/-- Totals of one kind of respondent, if there are any, with one more. -/
def withTotal (total : Float) (old : Option (List Float)) : List Float :=
  total :: old.getD []

theorem length_withTotal (total : Float) (old : Option (List Float)) :
    (withTotal total old).length = old.elim 0 List.length + 1 := by
  cases old <;> rfl

/-- A breakdown changes the totals of its kind of respondent if it has a total. -/
theorem find?_addTotal (respondent : Respondent) (totals : Index Respondent (List Float))
    (b : Breakdown) :
    (addTotal totals b).find? respondent
      = (categoryTotal? respondent b).elim (totals.find? respondent) fun total =>
        some (withTotal total (totals.find? respondent)) := by
  unfold addTotal categoryTotal?
  -- Only a breakdown with a total changes anything, and only for its own respondent.
  cases b.total with
  | none => simp
  | some total =>
    by_cases hrespondent : b.respondent = respondent
    · subst hrespondent
      simp [Index.find?_alter_self, withTotal]
    · simp [Index.find?_alter_of_ne (Ne.symm hrespondent), hrespondent]

/-- **A breakdown** adds its total to those of its kind of respondent. -/
theorem totalsOf_addTotal (respondent : Respondent) (totals : Index Respondent (List Float))
    (b : Breakdown) :
    totalsOf respondent (addTotal totals b)
      = (categoryTotal? respondent b).toList ++ totalsOf respondent totals := by
  unfold totalsOf
  rw [find?_addTotal]
  cases categoryTotal? respondent b <;> rfl

/-! ### The least and the greatest total -/

theorem lesser_eq_or_eq (a b : Float) : Formula.lesser a b = a ∨ Formula.lesser a b = b := by
  unfold Formula.lesser
  split_ifs <;> simp

theorem greater_eq_or_eq (a b : Float) : Formula.greater a b = a ∨ Formula.greater a b = b := by
  unfold Formula.greater
  split_ifs <;> simp

theorem not_isNaN_of_isFinite {x : Float} (h : x.isFinite = true) : x.isNaN = false := by
  obtain ⟨sign, hx⟩ | ⟨sign, m, e, hm, hx⟩ := unpack_of_isFinite h <;>
  · show x.toModel.unpack.isNaN = false
    rw [hx]
    rfl

/-- The infinity gives way to a finite float. -/
theorem lesser_infinity {x : Float} (h : x.isFinite = true) :
    Formula.lesser (1.0 / 0.0) x = x := by
  have hlt : x < 1.0 / 0.0 := by
    -- Whatever its sign and size, a finite float lies below infinity.
    obtain ⟨sign, hx⟩ | ⟨sign, m, e, hm, hx⟩ := unpack_of_isFinite h <;>
    · refine decide_eq_true ?_
      show x.toModel.unpack.lt (.infinity .positive) = true
      rw [hx]
      rfl
  have hinfinity : (1.0 / 0.0 : Float).isNaN = false := by decide +kernel
  rw [Formula.lesser, hinfinity, if_neg Bool.false_ne_true, not_isNaN_of_isFinite h,
    if_neg Bool.false_ne_true, if_pos hlt]

/-- The negative infinity gives way to a finite float. -/
theorem greater_infinity {x : Float} (h : x.isFinite = true) :
    Formula.greater (-1.0 / 0.0) x = x := by
  have hlt : -1.0 / 0.0 < x := by
    -- Whatever its sign and size, a finite float lies above minus infinity.
    obtain ⟨sign, hx⟩ | ⟨sign, m, e, hm, hx⟩ := unpack_of_isFinite h <;>
    · refine decide_eq_true ?_
      show Float.Model.UnpackedFloat.lt (.infinity .negative) x.toModel.unpack = true
      rw [hx]
      rfl
  have hinfinity : (-1.0 / 0.0 : Float).isNaN = false := by decide +kernel
  rw [Formula.greater, hinfinity, if_neg Bool.false_ne_true, not_isNaN_of_isFinite h,
    if_neg Bool.false_ne_true, if_pos hlt]

/-- What is chosen among finite floats is finite. -/
theorem isFinite_foldl_choice {choose : Float → Float → Float}
    (hchoose : ∀ a b, choose a b = a ∨ choose a b = b) {values : List Float} {start : Float}
    (hstart : start.isFinite = true) (h : ∀ x ∈ values, x.isFinite = true) :
    (values.foldl choose start).isFinite = true := by
  induction values generalizing start with
  | nil => exact hstart
  | cons x rest ih =>
    obtain ⟨hx, hrest⟩ := List.forall_mem_cons.1 h
    refine ih ?_ hrest
    obtain heq | heq := hchoose start x <;> rw [heq] <;> assumption

theorem TotalSummary.mean_of_ofTotals? {totals : List Float} {t : TotalSummary}
    (ht : ofTotals? totals = some t) : t.mean = Scoresheet.mean totals := by
  cases totals with
  | nil => cases ht
  | cons x rest => rw [← Option.some.inj ht]

/-- **The least and the greatest total** are finite if the totals are. -/
theorem TotalSummary.isFinite_bounds {totals : List Float} (h : ∀ x ∈ totals, x.isFinite = true)
    {t : TotalSummary} (ht : ofTotals? totals = some t) :
    t.min.isFinite = true ∧ t.max.isFinite = true := by
  cases totals with
  | nil => cases ht
  | cons x rest =>
    obtain ⟨hx, hrest⟩ := List.forall_mem_cons.1 h
    obtain rfl := Option.some.inj ht
    -- The infinity at the start is replaced by the first total, and from then on one of the totals
    -- is chosen.
    constructor
    · show (rest.foldl Formula.lesser (Formula.lesser (1.0 / 0.0) x)).isFinite = true
      rw [lesser_infinity hx]
      exact isFinite_foldl_choice lesser_eq_or_eq hx hrest
    · show (rest.foldl Formula.greater (Formula.greater (-1.0 / 0.0) x)).isFinite = true
      rw [greater_infinity hx]
      exact isFinite_foldl_choice greater_eq_or_eq hx hrest

/-! ### Statistics -/

/-- The summaries whose floats are all finite. -/
structure TotalSummary.Finite (t : TotalSummary) : Prop where
  mean : t.mean.isFinite = true
  min : t.min.isFinite = true
  max : t.max.isFinite = true

/-- **The statistics whose floats are all finite.** -/
structure Statistics.Finite (s : Statistics) : Prop where
  totals : ∀ t ∈ s.totals, t.Finite
  questions : ∀ e ∈ s.perQuestion.entries, e.2.mean.isFinite = true
  categories : ∀ e ∈ s.perCategory.entries, e.2.meanTotal.isFinite = true

/-- **A breakdown leaves room** for some steps if its total and its finite subtotals do. -/
structure Breakdown.LeavesRoom (steps : ℕ) (b : Breakdown) : Prop where
  total : ∀ x ∈ b.total, Scoresheet.LeavesRoom steps x
  subtotals : ∀ e ∈ b.byQuestion.entries, e.2.value.isFinite = true →
    Scoresheet.LeavesRoom steps e.2.value

theorem isFinite_of_finite? {x y : Float} (h : finite? x = some y) : y.isFinite = true := by
  unfold finite? at h
  split at h
  · obtain rfl := Option.some.inj h
    assumption
  · cases h

/-- The total of a breakdown is finite. -/
theorem Breakdown.isFinite_total_fold {sessionId : Int64} {respondent : Respondent}
    {aggregation : Aggregation} {entries : List Entry} {x : Float}
    (h : (fold sessionId respondent aggregation entries).total = some x) : x.isFinite = true := by
  obtain ⟨y, -, hfinite⟩ := Option.bind_eq_some_iff.1 h
  exact isFinite_of_finite? hfinite

namespace Statistics

variable {breakdowns : List Breakdown}

/-- A mean of what is picked from the breakdowns, at most one value from each. -/
theorem isFinite_mean_filterMap {pick : Breakdown → Option Float}
    (h : ∀ b ∈ breakdowns, ∀ x ∈ pick b, Scoresheet.LeavesRoom breakdowns.length x) :
    (mean (breakdowns.filterMap pick)).isFinite = true := by
  refine isFinite_mean fun x hx => ?_
  obtain ⟨b, hb, hpick⟩ := List.mem_filterMap.1 hx
  exact (h b hb x hpick).mono (List.length_filterMap_le _ _)

/-- The mean of a question is that of its finite subtotals. -/
theorem mean_of_mem_perQuestion {failed : ℕ} {e : Int64 × QuestionStatistics}
    (h : e ∈ (ofBreakdowns breakdowns failed).perQuestion.entries) :
    e.2.mean = mean (breakdowns.filterMap fun b => (finiteSubtotal? e.1 b).map Subtotal.value) := by
  -- The tally of the question collects its subtotals, the last one first.
  obtain ⟨⟨question, tally⟩, htally, rfl⟩ := List.mem_map.1 h
  have hfind := Index.find?_eq_some_iff.2 htally
  have hcollected := foldl_collects _ _ (QuestionTally.subtotalsOf_addBreakdown question)
    breakdowns ∅
  unfold QuestionTally.subtotalsOf at hcollected
  rw [hfind, Index.find?_empty, Option.map_none, Option.getD_none, List.append_nil] at hcollected
  have hsubtotals : tally.subtotals = (breakdowns.filterMap fun b =>
      (finiteSubtotal? question b).map Subtotal.value).reverse := hcollected
  simp only [QuestionTally.statistics, hsubtotals, List.reverse_reverse]

/-- The mean of a kind of respondent is that of their totals. -/
theorem meanTotal_of_mem_perCategory {failed : ℕ} {e : Respondent × CategoryStatistics}
    (h : e ∈ (ofBreakdowns breakdowns failed).perCategory.entries) :
    e.2.meanTotal = mean (breakdowns.filterMap (categoryTotal? e.1)) := by
  obtain ⟨⟨respondent, totals⟩, htotals, rfl⟩ := List.mem_map.1 h
  have hfind := Index.find?_eq_some_iff.2 htotals
  have hcollected := foldl_collects _ _ (totalsOf_addTotal respondent) breakdowns ∅
  unfold totalsOf at hcollected
  rw [hfind, Index.find?_empty, Option.getD_none, List.append_nil] at hcollected
  have htotals' : totals = (breakdowns.filterMap (categoryTotal? respondent)).reverse := hcollected
  simp only [CategoryStatistics.ofTotals, htotals', List.reverse_reverse]

/-- **When statistics are finite.** The least and the greatest total always are. The means are if
every total and every finite subtotal leaves room for as many steps as there are breakdowns. -/
theorem finite_ofBreakdowns (hfold : ∀ b ∈ breakdowns,
      b = Breakdown.fold b.sessionId b.respondent b.aggregation b.entries) (failed : ℕ) :
    (∀ t ∈ (ofBreakdowns breakdowns failed).totals,
      t.min.isFinite = true ∧ t.max.isFinite = true) ∧
    ((∀ b ∈ breakdowns, b.LeavesRoom breakdowns.length) →
      (ofBreakdowns breakdowns failed).Finite) := by
  have htotals : ∀ x ∈ breakdowns.filterMap Breakdown.total, x.isFinite = true := by
    intro x hx
    obtain ⟨b, hb, htotal⟩ := List.mem_filterMap.1 hx
    rw [hfold b hb] at htotal
    exact Breakdown.isFinite_total_fold htotal
  have hbounds : ∀ t ∈ (ofBreakdowns breakdowns failed).totals,
      t.min.isFinite = true ∧ t.max.isFinite = true :=
    fun t ht => TotalSummary.isFinite_bounds htotals ht
  -- Every mean is one of what is picked from the breakdowns, at most once from each.
  refine ⟨hbounds, fun hroom => ⟨fun t ht => ?_, fun e he => ?_, fun e he => ?_⟩⟩
  · obtain ⟨hmin, hmax⟩ := hbounds t ht
    refine ⟨?_, hmin, hmax⟩
    rw [TotalSummary.mean_of_ofTotals? ht]
    exact isFinite_mean_filterMap fun b hb => (hroom b hb).total
  · rw [mean_of_mem_perQuestion he]
    refine isFinite_mean_filterMap fun b hb x hx => ?_
    obtain ⟨s, hs, rfl⟩ := Option.map_eq_some_iff.1 hx
    obtain ⟨hfind, hfinite⟩ := Option.filter_eq_some_iff.1 hs
    exact (hroom b hb).subtotals _ (Index.mem_entries_of_find? hfind) hfinite
  · rw [meanTotal_of_mem_perCategory he]
    refine isFinite_mean_filterMap fun b hb x hx => ?_
    unfold categoryTotal? at hx
    split at hx
    · exact (hroom b hb).total x hx
    · cases hx

/-- Three sessions whose totals add up to more than the greatest float: their means are finite. -/
theorem finite_ofBreakdowns_large :
    let breakdowns := [1, 2, 3].map fun id => Breakdown.fold id .adult .sum
      [⟨⟨1, 1⟩, "Q", "x", .scored (Float.ofBits 0x7FDFFFFFFFFFFFFF)⟩]
    (∀ b ∈ breakdowns, b = Breakdown.fold b.sessionId b.respondent b.aggregation b.entries) ∧
      (∀ b ∈ breakdowns, b.LeavesRoom breakdowns.length) ∧
      (ofBreakdowns breakdowns 0).Finite := by
  intro breakdowns
  have hfold : ∀ b ∈ breakdowns,
      b = Breakdown.fold b.sessionId b.respondent b.aggregation b.entries :=
    List.forall_mem_map.2 fun id _ => rfl
  have hunpack : (Float.ofBits 0x7FDFFFFFFFFFFFFF).toModel.unpack
      = .finite .positive (2 ^ 53 - 1) 970 (by decide) := rfl
  -- Every float of the batch is half the largest one.
  have hvalue := leavesRoom_of_exponent_lt (n := 3) hunpack (by decide) (by decide)
  have hroom : ∀ b ∈ breakdowns, b.LeavesRoom breakdowns.length := by
    refine List.forall_mem_map.2 fun id _ => ⟨fun x hx => ?_, fun e he _ => ?_⟩
    · rwa [← Option.some.inj hx]
    · obtain rfl : e = (1, ⟨"Q", Float.ofBits 0x7FDFFFFFFFFFFFFF, 1⟩) := List.mem_singleton.1 he
      exact hvalue
  exact ⟨hfold, hroom, (finite_ofBreakdowns hfold 0).2 hroom⟩

/-- **Statistics are not always finite:** a third of the greatest float is rounded up, so that three
of them add up to more. -/
theorem not_forall_finite :
    ¬ ∀ (breakdowns : List Breakdown) (failed : ℕ),
      (∀ b ∈ breakdowns, b = Breakdown.fold b.sessionId b.respondent b.aggregation b.entries) →
        (∀ b ∈ breakdowns, ∀ x ∈ scoredValues b.entries, x.isFinite = true) →
          (ofBreakdowns breakdowns failed).Finite := by
  intro hfinite
  -- Each of the three breakdowns is finite, and the mean of their totals overflows.
  have hbatch := hfinite ([1, 2, 3].map fun id =>
      Breakdown.fold id .adult .sum [⟨⟨1, 1⟩, "Q", "x", .scored (Float.ofBits 0x7FEFFFFFFFFFFFFF)⟩])
    0 (List.forall_mem_map.2 fun id _ => rfl) (by decide +kernel)
  have hmean := (hbatch.totals _ rfl).mean
  revert hmean
  decide +kernel

end Statistics

end Scoresheet
