import Scoresheet.Proofs.Decimal.Differences
import Scoresheet.Proofs.Report.Comparison

/-!
# Comparing in the other direction

A comparison goes through the sessions of the current report and looks them up in the baseline. Had
it gone the other way round, it would have found the same sessions in the same order, with what they
came to before and after exchanged.

* `TotalChange.exchanged`, `Comparison.exchanged` — what is found in the other direction.
* `Report.shared_comm` — the sessions that two reports share.
* `differs_comm`, `delta?_comm` — the totals of one session.
* `Report.compare_comm` — the comparison of two reports, and of a report with itself.
-/

namespace Scoresheet

/-- A change in the other direction. -/
def TotalChange.exchanged (change : TotalChange) : TotalChange where
  sessionId := change.sessionId
  baseline := change.current
  current := change.baseline
  delta := change.delta.map (-·)

/-- **What a comparison finds in the other direction.** -/
def Comparison.exchanged (c : Comparison) : Comparison where
  changes := c.changes.map TotalChange.exchanged
  unchanged := c.unchanged
  newSessions := c.removedSessions
  removedSessions := c.newSessions

/-! ### Two totals -/

section Totals

variable {threshold : Float} (hthreshold : (0.0 : Float) ≤ threshold) {before after : Option Float}

include hthreshold

theorem differs_self (total : Option Float) : differs threshold total total = false := by
  cases total with
  | none => rfl
  | some x => exact decide_eq_false (Decimal.not_lt_abs_sub_self hthreshold x)

variable (hbefore : ∀ x, before = some x → x.isFinite = true)
  (hafter : ∀ x, after = some x → x.isFinite = true)

include hbefore hafter

/-- Two totals count as different in both directions. -/
theorem differs_comm : differs threshold after before = differs threshold before after := by
  cases before with
  | none => cases after <;> rfl
  | some b =>
    cases after with
    | none => rfl
    | some a =>
      exact decide_eq_decide.2
        (Decimal.lt_abs_sub_comm (hafter a rfl) (hbefore b rfl) hthreshold)

/-- A total that moved has moved as far in the other direction. -/
theorem delta?_comm (h : differs threshold before after = true) :
    delta? after before = (delta? before after).map (-·) := by
  cases before with
  -- A side without a total has no change either way round.
  | none => cases after <;> rfl
  | some b =>
    cases after with
    | none => rfl
    | some a =>
      -- The totals differ by more than a threshold that is not negative, so they are not equal.
      have hmoved : threshold < (a - b).abs := of_decide_eq_true h
      exact congrArg some
        (Decimal.sub_eq_neg_sub (hafter a rfl) (hbefore b rfl) (.of_lt_abs hthreshold hmoved))

end Totals

/-! ### Two reports -/

namespace Report

theorem pairwise_shared (current baseline : Report) :
    (current.shared baseline).Pairwise fun s t => s.1 < t.1 := by
  rw [← List.pairwise_map, map_fst_shared]
  exact current.pairwise_keys_totals.filter _

/-- **The sessions that two reports share** are the same in both directions. -/
theorem shared_comm (current baseline : Report) :
    baseline.shared current = (current.shared baseline).map fun s => (s.1, s.2.2, s.2.1) := by
  have hpairwise : ((current.shared baseline).map fun s => (s.1, s.2.2, s.2.1)).Pairwise
      fun s t => s.1 < t.1 :=
    List.pairwise_map.2 (pairwise_shared current baseline)
  have hnodup {l : List (Int64 × Option Float × Option Float)}
      (h : l.Pairwise fun s t => s.1 < t.1) : l.Nodup := by
    refine h.imp fun {s t} hlt heq => ?_
    rw [heq] at hlt
    exact Int64.lt_irrefl hlt
  -- Both lists ascend, so that what is in them decides.
  refine List.Perm.eq_of_pairwise (fun s t _ _ hst hts => absurd hts (Int64.lt_asymm hst))
    (pairwise_shared baseline current) hpairwise ?_
  rw [List.perm_ext_iff_of_nodup (hnodup (pairwise_shared baseline current)) (hnodup hpairwise)]
  rintro ⟨id, old, total⟩
  simp only [List.mem_map, Prod.exists, mem_shared]
  constructor
  · rintro ⟨hbaseline, hcurrent, hold, htotal⟩
    exact ⟨id, total, old, ⟨hcurrent, hbaseline, htotal, hold⟩, rfl⟩
  · rintro ⟨_, _, _, ⟨hcurrent, hbaseline, htotal, hold⟩, heq⟩
    cases heq
    exact ⟨hbaseline, hcurrent, hold, htotal⟩

variable {current baseline : Report} {threshold : Float}

/-- **In the other direction** a comparison finds the same. -/
theorem compare_eq_exchanged (hthreshold : (0.0 : Float) ≤ threshold)
    (hcurrent : current.FiniteTotals) (hbaseline : baseline.FiniteTotals) :
    baseline.compare current threshold = (current.compare baseline threshold).exchanged := by
  -- The totals of a shared session, before and after.
  have hfinite {s : Int64 × Option Float × Option Float} (hs : s ∈ current.shared baseline) :
      (∀ x, s.2.1 = some x → x.isFinite = true) ∧ ∀ x, s.2.2 = some x → x.isFinite = true := by
    obtain ⟨-, -, hold, htotal⟩ := mem_shared.1 hs
    rw [hold, htotal]
    exact ⟨hbaseline.isFinite_lastTotal, hcurrent.isFinite_lastTotal⟩
  have hdiffers : ∀ s ∈ current.shared baseline,
      differs threshold s.2.2 s.2.1 = differs threshold s.2.1 s.2.2 :=
    fun s hs => differs_comm hthreshold (hfinite hs).1 (hfinite hs).2
  have hchanges : ((current.shared baseline).filter fun s => differs threshold s.2.2 s.2.1).map
        (fun s => (⟨s.1, s.2.2, s.2.1, delta? s.2.2 s.2.1⟩ : TotalChange))
      = ((current.shared baseline).filter fun s => differs threshold s.2.1 s.2.2).map
        fun s => (⟨s.1, s.2.1, s.2.2, delta? s.2.1 s.2.2⟩ : TotalChange).exchanged := by
    rw [List.filter_congr hdiffers]
    refine List.map_congr_left fun s hs => ?_
    obtain ⟨hs, hmoved⟩ := List.mem_filter.1 hs
    rw [delta?_comm hthreshold (hfinite hs).1 (hfinite hs).2 hmoved]
    rfl
  have hunchanged : (current.shared baseline).filter (fun s => !differs threshold s.2.2 s.2.1)
      = (current.shared baseline).filter fun s => !differs threshold s.2.1 s.2.2 :=
    List.filter_congr fun s hs => congrArg (!·) (hdiffers s hs)
  rw [compare_eq, compare_eq, shared_comm current baseline, Comparison.exchanged]
  simp only [List.filter_map, List.map_map, List.length_map, Function.comp_def, hchanges,
    hunchanged]

/-- A report compared with itself finds nothing. -/
theorem compare_self (hthreshold : (0.0 : Float) ≤ threshold) (report : Report) :
    report.compare report threshold = ⟨[], report.sessionIds.dedup.length, [], []⟩ := by
  -- A report shares every session with itself, with the same total on both sides.
  have hsame : ∀ s ∈ report.shared report, differs threshold s.2.1 s.2.2 = false := by
    intro s hs
    obtain ⟨-, -, hold, htotal⟩ := mem_shared.1 hs
    rw [hold, htotal, differs_self hthreshold]
  have hchanged : (report.shared report).filter (fun s => differs threshold s.2.1 s.2.2) = [] :=
    List.filter_eq_nil_iff.2 fun s hs => Bool.eq_false_iff.1 (hsame s hs)
  have hunchanged : (report.shared report).filter (fun s => !differs threshold s.2.1 s.2.2)
      = report.shared report :=
    List.filter_eq_self.2 fun s hs => by rw [hsame s hs]; rfl
  have hall : ∀ id ∈ report.totals.keys, id ∈ report.sessionIds := fun id => mem_keys_totals.1
  have hnone : report.totals.keys.filter (fun id => id ∉ report.sessionIds) = [] :=
    List.filter_eq_nil_iff.2 fun id hid => by simpa using hall id hid
  have hlength : (report.shared report).length = report.sessionIds.dedup.length := by
    rw [length_shared, ← length_keys_totals,
      List.filter_eq_self.2 fun id hid => decide_eq_true (hall id hid)]
  rw [compare_eq, hchanged, hunchanged, hnone, hlength]
  rfl

/-- **A comparison has no preferred direction.** If all totals are finite, the baseline compared
with the current report shows as new what is removed in the comparison of the current report with
it, and the other way round, the same sessions in the same order as changed, with their totals
exchanged and the opposite delta, and as many unchanged. Any report compared with itself has no
changes, and nothing new or removed, and each of its identifiers counts as unchanged. -/
theorem compare_comm (hthreshold : (0.0 : Float) ≤ threshold) :
    (∀ current baseline : Report, current.FiniteTotals → baseline.FiniteTotals →
      baseline.compare current threshold = (current.compare baseline threshold).exchanged) ∧
    ∀ report : Report,
      report.compare report threshold = ⟨[], report.sessionIds.dedup.length, [], []⟩ :=
  ⟨fun _ _ => compare_eq_exchanged hthreshold, compare_self hthreshold⟩

/-- A report with the given totals. -/
def ofTotals (totals : List (Int64 × Option Float)) : Report where
  id := .nil
  createdAt := ⟨⟨2025, 11, 3, by decide, by decide, by decide⟩, 18, 10, 40, 750, by decide,
    by decide, by decide, by decide⟩
  settings := ⟨.record, .sum⟩
  breakdowns := totals.map fun t => ⟨t.1, .adult, .sum, [], t.2, none, 0, false⟩
  failures := []
  statistics := .ofBreakdowns [] 0
  durationMs := 0

/-- Two reports with a session that only the one has, one that only the other has, one that is given
twice and moved, and one that lost its total. -/
theorem compare_comm_moved :
    let current := ofTotals [(1, some 2.5), (2, some 7), (2, some 4), (5, none)]
    let baseline := ofTotals [(5, some 1), (3, none), (2, some 1)]
    (baseline.compare current 0.5).newSessions = [3] ∧
      (baseline.compare current 0.5).removedSessions = [1] ∧
      (baseline.compare current 0.5).changes.map TotalChange.delta = [some (-3), none] ∧
      current.compare current 0.5 = ⟨[], 3, [], []⟩ := by
  intro current baseline
  obtain ⟨hexchanged, hself⟩ := @compare_comm 0.5 (by decide +kernel)
  rw [hexchanged current baseline (by decide +kernel) (by decide +kernel)]
  exact ⟨by decide +kernel, by decide +kernel, by decide +kernel, hself current⟩

end Report

end Scoresheet
