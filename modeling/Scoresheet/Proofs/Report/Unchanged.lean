import Mathlib.Data.List.Perm.Basic
import Scoresheet.Proofs.Decimal.Differences
import Scoresheet.Proofs.Report.Comparison
import Scoresheet.Proofs.Scoring.Completeness
import Scoresheet.Proofs.Scoring.Engine

/-!
# Comparisons that find nothing

A comparison at threshold zero that finds nothing should mean that the sessions of both batches came
to the same. It does, if no two sessions of a batch have the same identifier. Nothing keeps sessions
from having one identifier, though, and of those that have only the last one is compared.

* `Batch.Produces` — the reports that a batch may come to.
* `Produces.sessionIds_perm`, `Produces.finiteTotals` — their identifiers are those of the
  sessions, and their totals are finite.
* `Report.scores` — what the sessions of a report came to.
* `Report.mem_scores_iff`, `Report.perm_scores_iff` — the last totals tell what they came to, if no
  two have the same identifier.
* `Report.silent_iff_same_totals` — what a comparison that finds nothing says.
-/

namespace Scoresheet

/-! ### The reports of batches -/

namespace Batch

/-- **The reports of a batch:** those that the batch may come to, in whatever order its sessions
finish. -/
def Produces (settings : ScoringSettings) (sessions : List Session) (report : Report) : Prop :=
  ∃ parallelism engine outcome id createdAt durationMs,
    Engine.Run settings parallelism (Engine.ofSessions sessions) engine ∧
      engine.outcome? = some outcome ∧ report = outcome.report settings id createdAt durationMs

variable {settings : ScoringSettings} {sessions : List Session} {report : Report}

/-- What is in a report accounts for the sessions. -/
theorem Produces.exists_accounts (h : Produces settings sessions report) :
    ∃ outcome : Outcome, outcome.Accounts settings sessions ∧
      report.breakdowns = outcome.breakdowns ∧ report.failures = outcome.failures := by
  obtain ⟨parallelism, engine, outcome, id, createdAt, durationMs, hrun, houtcome, rfl⟩ := h
  have hclosed : engine.outcome? ≠ none := by
    rw [houtcome]
    exact Option.some_ne_none outcome
  -- A run that has an outcome is closed, and takes no further step.
  have hend (later : Engine) : ¬ Engine.Step settings parallelism engine later :=
    Engine.not_step_of_closed hclosed later
  obtain ⟨completed, hperm, houtcome', -⟩ := Engine.exists_outcome_of_run hrun hend
  obtain rfl := Option.some.inj (houtcome.symm.trans houtcome')
  exact ⟨_, collect_accounts hperm, rfl, rfl⟩

/-- Every session has its breakdown or its failure, under its own identifier. -/
theorem perm_sessionIds (settings : ScoringSettings) (sessions : List Session) :
    ((sessions.filterMap fun s => (Completion.ofSession settings s).breakdown?).map
        Breakdown.sessionId
      ++ (sessions.filterMap fun s => (Completion.ofSession settings s).failure?).map
        SessionFailure.sessionId).Perm (sessions.map Session.id) := by
  induction sessions with
  | nil => exact .refl _
  | cons session rest ih =>
    -- A session gives a breakdown or a failure, and its identifier goes to that list.
    cases hscore : score settings session with
    | ok b =>
      have hbreakdown : (Completion.ofSession settings session).breakdown? = some b :=
        breakdown?_ofSession_eq_some_iff.2 hscore
      have hfailure : (Completion.ofSession settings session).failure? = none := by
        rw [Completion.failure?, Completion.ofSession, hscore]
      simp only [List.filterMap_cons, hbreakdown, hfailure, List.map_cons, List.cons_append,
        sessionId_of_breakdown? hbreakdown]
      exact ih.cons _
    | error e =>
      have hbreakdown : (Completion.ofSession settings session).breakdown? = none := by
        rw [Completion.breakdown?, Completion.ofSession, hscore]
        rfl
      have hfailure : (Completion.ofSession settings session).failure?
          = some (failure session.id e) := by
        rw [Completion.failure?, Completion.ofSession, hscore]
      simp only [List.filterMap_cons, hbreakdown, hfailure, List.map_cons,
        sessionId_of_failure? hfailure]
      exact List.perm_middle.trans (ih.cons _)

/-- **The identifiers of a report** are those of the sessions. -/
theorem Produces.sessionIds_perm (h : Produces settings sessions report) :
    report.sessionIds.Perm (sessions.map Session.id) := by
  obtain ⟨outcome, haccounts, hbreakdowns, hfailures⟩ := h.exists_accounts
  rw [Report.sessionIds, hbreakdowns, hfailures]
  exact ((haccounts.breakdowns.map _).append (haccounts.failures.map _)).trans
    (perm_sessionIds settings sessions)

/-- **The totals of a report** are finite. -/
theorem Produces.finiteTotals (h : Produces settings sessions report) : report.FiniteTotals := by
  intro b hb x hx
  obtain ⟨outcome, haccounts, hbreakdowns, -⟩ := h.exists_accounts
  rw [hbreakdowns] at hb
  obtain ⟨session, -, hbreakdown⟩ := List.mem_filterMap.1 (haccounts.breakdowns.mem_iff.1 hb)
  rw [score_eq_fold (breakdown?_ofSession_eq_some_iff.1 hbreakdown)] at hx
  exact Breakdown.isFinite_total_fold hx

end Batch

namespace Report

/-! ### What sessions came to -/

/-- **What the sessions of a report came to:** the identifier of each, with the number that its
total stands for if it has one. -/
def scores (report : Report) : List (Int64 × Option ℚ) :=
  report.breakdowns.map (fun b => (b.sessionId, b.total.map Decimal.value))
    ++ report.failures.map fun f => (f.sessionId, none)

theorem map_fst_scores (report : Report) : report.scores.map Prod.fst = report.sessionIds := by
  rw [scores, List.map_append, List.map_map, List.map_map]
  rfl

/-- **What a session came to** is its last total, where no two sessions have the same identifier.
-/
theorem mem_scores_iff {report : Report} (h : report.sessionIds.Nodup) {id : Int64}
    {total : Option ℚ} :
    (id, total) ∈ report.scores ↔
      id ∈ report.sessionIds ∧ (report.lastTotal id).map Decimal.value = total := by
  -- As no identifier comes twice, the last total of a score's session is that of the score.
  have hlast {score : Int64 × Option ℚ} (hmem : score ∈ report.scores) :
      (report.lastTotal score.1).map Decimal.value = score.2 := by
    obtain ⟨hbreakdowns, -, hdisjoint⟩ := List.nodup_append'.1 h
    obtain hmem | hmem := List.mem_append.1 hmem
    · obtain ⟨b, hb, rfl⟩ := List.mem_map.1 hmem
      unfold lastTotal
      -- The last breakdown of the identifier is the breakdown itself.
      cases hfound : (report.breakdowns.filter fun b' => b'.sessionId = b.sessionId).getLast? with
      | none => exact absurd (List.mem_map_of_mem hb) (getLast?_breakdowns_eq_none_iff.1 hfound)
      | some b' =>
        obtain ⟨hb', hid⟩ := List.mem_filter.1 (List.mem_of_getLast? hfound)
        obtain rfl := List.inj_on_of_nodup_map hbreakdowns hb' hb (of_decide_eq_true hid)
        rfl
    -- A failed session has no breakdown, and so no total.
    · obtain ⟨f, hf, rfl⟩ := List.mem_map.1 hmem
      rw [lastTotal_of_notMem fun hid => hdisjoint hid (List.mem_map_of_mem hf)]
      rfl
  constructor
  · intro hmem
    refine ⟨?_, hlast hmem⟩
    rw [← map_fst_scores]
    exact List.mem_map_of_mem hmem
  · rintro ⟨hid, rfl⟩
    rw [← map_fst_scores] at hid
    obtain ⟨score, hmem, rfl⟩ := List.mem_map.1 hid
    rw [hlast hmem]
    exact hmem

theorem nodup_scores {report : Report} (h : report.sessionIds.Nodup) : report.scores.Nodup := by
  rw [← map_fst_scores] at h
  exact h.of_map _

end Report

/-! ### Comparisons that find nothing -/

/-- **A comparison that finds nothing:** no change, and no session that is new or gone. -/
structure Comparison.Silent (c : Comparison) : Prop where
  changes : c.changes = []
  newSessions : c.newSessions = []
  removedSessions : c.removedSessions = []

/-- With the threshold zero, finite totals differ if they stand for different numbers. -/
theorem differs_zero_eq_false_iff {before after : Option Float}
    (hbefore : ∀ x, before = some x → x.isFinite = true)
    (hafter : ∀ x, after = some x → x.isFinite = true) :
    differs 0.0 before after = false ↔ after.map Decimal.value = before.map Decimal.value := by
  cases before with
  | none => cases after <;> simp [differs]
  | some b =>
    cases after with
    | none => simp [differs]
    | some a =>
      -- Two finite totals differ by more than zero if and only if their values are not equal.
      rw [differs, decide_eq_false_iff_not,
        Decimal.zero_lt_abs_sub_iff (hafter a rfl) (hbefore b rfl), not_not, Option.map_some,
        Option.map_some, Option.some_inj]

namespace Report

/-- **A comparison finds nothing** if both reports have the same identifiers, and no last total
moved. -/
theorem silent_compare_iff {current baseline : Report} {threshold : Float} :
    (current.compare baseline threshold).Silent ↔
      (∀ id, id ∈ current.sessionIds ↔ id ∈ baseline.sessionIds) ∧
        ∀ id ∈ current.sessionIds, id ∈ baseline.sessionIds →
          differs threshold (baseline.lastTotal id) (current.lastTotal id) = false := by
  rw [compare_eq]
  constructor
  · rintro ⟨hchanges, hnew, hremoved⟩
    rw [List.map_eq_nil_iff, List.filter_eq_nil_iff] at hchanges
    rw [List.filter_eq_nil_iff] at hnew hremoved
    -- Each list is empty if and only if no session passes its filter.
    refine ⟨fun id => ⟨fun hid => ?_, fun hid => ?_⟩, fun id hcurrent hbaseline => ?_⟩
    · simpa using hnew id (mem_keys_totals.2 hid)
    · simpa using hremoved id (mem_keys_totals.2 hid)
    · have hmem := mem_shared.2 ⟨hcurrent, hbaseline, rfl, rfl⟩
      simpa using hchanges _ hmem
  · rintro ⟨hids, hdiffers⟩
    refine ⟨?_, ?_, ?_⟩
    · rw [List.map_eq_nil_iff, List.filter_eq_nil_iff]
      rintro ⟨id, before, after⟩ hmem
      obtain ⟨hcurrent, hbaseline, rfl, rfl⟩ := mem_shared.1 hmem
      rw [hdiffers id hcurrent hbaseline]
      exact Bool.false_ne_true
    · rw [List.filter_eq_nil_iff]
      intro id hid
      simpa using (hids id).1 (mem_keys_totals.1 hid)
    · rw [List.filter_eq_nil_iff]
      intro id hid
      simpa using (hids id).2 (mem_keys_totals.1 hid)

variable {settings settings' : ScoringSettings} {sessions sessions' : List Session}
  {current baseline : Report}

/-- A comparison at threshold zero, in terms of the numbers that totals stand for. -/
theorem silent_zero_iff (hcurrent : Batch.Produces settings sessions current)
    (hbaseline : Batch.Produces settings' sessions' baseline) :
    (current.compare baseline 0.0).Silent ↔
      (∀ id, id ∈ current.sessionIds ↔ id ∈ baseline.sessionIds) ∧
        ∀ id, (current.lastTotal id).map Decimal.value
          = (baseline.lastTotal id).map Decimal.value := by
  -- Both totals are finite, so that the threshold of zero compares their values.
  have hdiffers (id : Int64) :
      differs 0.0 (baseline.lastTotal id) (current.lastTotal id) = false ↔
        (current.lastTotal id).map Decimal.value = (baseline.lastTotal id).map Decimal.value :=
    differs_zero_eq_false_iff hbaseline.finiteTotals.isFinite_lastTotal
      hcurrent.finiteTotals.isFinite_lastTotal
  rw [silent_compare_iff]
  refine and_congr_right fun hids => ⟨fun h id => ?_, fun h id _ _ => (hdiffers id).2 (h id)⟩
  by_cases hid : id ∈ current.sessionIds
  · exact (hdiffers id).1 (h id hid ((hids id).1 hid))
  · -- An identifier that neither report has is not compared, and has no total in either.
    rw [lastTotal_of_notMem_sessionIds hid, lastTotal_of_notMem_sessionIds (mt (hids id).2 hid)]

/-- The same last totals, where no two sessions have the same identifier, are the same scores. -/
theorem perm_scores_iff (hcurrent : current.sessionIds.Nodup)
    (hbaseline : baseline.sessionIds.Nodup) :
    current.scores.Perm baseline.scores ↔
      (∀ id, id ∈ current.sessionIds ↔ id ∈ baseline.sessionIds) ∧
        ∀ id, (current.lastTotal id).map Decimal.value
          = (baseline.lastTotal id).map Decimal.value := by
  -- No identifier comes twice on either side, so that it is enough to compare the members.
  rw [List.perm_ext_iff_of_nodup (nodup_scores hcurrent) (nodup_scores hbaseline)]
  constructor
  · intro hscores
    have hcurrent' (id : Int64) (hid : id ∈ current.sessionIds) :=
      (mem_scores_iff hbaseline).1 ((hscores _).1 ((mem_scores_iff hcurrent).2 ⟨hid, rfl⟩))
    have hbaseline' (id : Int64) (hid : id ∈ baseline.sessionIds) :=
      (mem_scores_iff hcurrent).1 ((hscores _).2 ((mem_scores_iff hbaseline).2 ⟨hid, rfl⟩))
    refine ⟨fun id => ⟨fun hid => (hcurrent' id hid).1, fun hid => (hbaseline' id hid).1⟩,
      fun id => ?_⟩
    by_cases hid : id ∈ current.sessionIds
    · exact (hcurrent' id hid).2.symm
    -- A session of neither report has no total on either side.
    · have hid' : id ∉ baseline.sessionIds := fun hmem => hid (hbaseline' id hmem).1
      rw [lastTotal_of_notMem_sessionIds hid, lastTotal_of_notMem_sessionIds hid']
  · rintro ⟨hids, htotals⟩ ⟨id, total⟩
    rw [mem_scores_iff hcurrent, mem_scores_iff hbaseline, hids id, htotals id]

/-- **What a comparison overlooks.** A comparison of two reports of batches at threshold zero finds
nothing exactly if both have the same identifiers and every identifier has the same last total. If
no two sessions of either batch have the same identifier, that is so exactly if the sessions of both
came to the same; if some have, only the last of them is compared. -/
theorem silent_iff_same_totals (hcurrent : Batch.Produces settings sessions current)
    (hbaseline : Batch.Produces settings' sessions' baseline) :
    ((current.compare baseline 0.0).Silent ↔
      (∀ id, id ∈ current.sessionIds ↔ id ∈ baseline.sessionIds) ∧
        ∀ id, (current.lastTotal id).map Decimal.value
          = (baseline.lastTotal id).map Decimal.value) ∧
    ((sessions.map Session.id).Nodup → (sessions'.map Session.id).Nodup →
      ((current.compare baseline 0.0).Silent ↔ current.scores.Perm baseline.scores)) := by
  refine ⟨silent_zero_iff hcurrent hbaseline, fun hids hids' => ?_⟩
  rw [silent_zero_iff hcurrent hbaseline,
    perm_scores_iff (hcurrent.sessionIds_perm.nodup_iff.2 hids)
      (hbaseline.sessionIds_perm.nodup_iff.2 hids')]

end Report

/-- The report of a batch whose sessions finish in the order in which they were given. -/
theorem Batch.produces_run (settings : ScoringSettings) (sessions : List Session) (id : Uuid)
    (createdAt : Timestamp) (durationMs : ℕ) :
    Produces settings sessions
      ((run settings sessions).report settings id createdAt durationMs) := by
  obtain ⟨engine, hrun, -, houtcome⟩ := Engine.exists_run_of_perm settings 1 (.refl sessions)
  exact ⟨1, engine, _, id, createdAt, durationMs, hrun, houtcome, rfl⟩

namespace Report

/-- A session with one answer, whose formula is given. -/
def oneAnswer (id : Int64) (formula : String) : Session :=
  { Batch.emptySession id with answers := [⟨⟨1, "", formula, ⟨1, ""⟩⟩, []⟩] }

/-- The report of a batch whose failures are recorded and whose totals are sums. -/
def ofSessions (sessions : List Session) : Report :=
  (Batch.run ⟨.record, .sum⟩ sessions).report ⟨.record, .sum⟩ .nil (Batch.emptySession 1).dateTime 0

theorem produces_ofSessions (sessions : List Session) :
    Batch.Produces ⟨.record, .sum⟩ sessions (ofSessions sessions) :=
  Batch.produces_run ..

/-- Two sessions, of which one has no total, in either order. -/
theorem silent_iff_same_totals_reverse :
    ((ofSessions [oneAnswer 1 "2 + 3", oneAnswer 2 "1 / 0"]).compare
      (ofSessions [oneAnswer 2 "1 / 0", oneAnswer 1 "2 + 3"]) 0.0).Silent := by
  obtain ⟨-, hsilent⟩ := silent_iff_same_totals
    (produces_ofSessions [oneAnswer 1 "2 + 3", oneAnswer 2 "1 / 0"])
    (produces_ofSessions [oneAnswer 2 "1 / 0", oneAnswer 1 "2 + 3"])
  -- The two batches have the same sessions in another order.
  have hswap : (Batch.outcomes ⟨.record, .sum⟩ [oneAnswer 1 "2 + 3", oneAnswer 2 "1 / 0"]).Perm
      (Batch.outcomes ⟨.record, .sum⟩ [oneAnswer 2 "1 / 0", oneAnswer 1 "2 + 3"]) := .swap _ _ _
  obtain ⟨hbreakdowns, hfailures, -⟩ := Batch.collect_eq_run_of_perm hswap (by decide)
  have hscores : (ofSessions [oneAnswer 1 "2 + 3", oneAnswer 2 "1 / 0"]).scores
      = (ofSessions [oneAnswer 2 "1 / 0", oneAnswer 1 "2 + 3"]).scores :=
    congrArg₂ (fun breakdowns failures =>
      breakdowns.map (fun b : Breakdown => (b.sessionId, b.total.map Decimal.value))
        ++ failures.map fun f : SessionFailure => (f.sessionId, none)) hbreakdowns hfailures
  exact (hsilent (by decide) (by decide)).2 (hscores ▸ .refl _)

/-- A batch of two sessions with one identifier keeps their order. -/
theorem breakdowns_ofSessions_pair (first second : String) :
    (ofSessions [oneAnswer 1 first, oneAnswer 1 second]).breakdowns
      = [recorded .sum (oneAnswer 1 first), recorded .sum (oneAnswer 1 second)] := by
  refine List.mergeSort_of_pairwise (List.pairwise_pair.2 ?_)
  exact decide_eq_true (Int64.le_refl 1)

theorem scores_ofSessions_pair (first second : String) :
    (ofSessions [oneAnswer 1 first, oneAnswer 1 second]).scores
      = [(1, (recorded .sum (oneAnswer 1 first)).total.map Decimal.value),
        (1, (recorded .sum (oneAnswer 1 second)).total.map Decimal.value)] := by
  have hfailures : (ofSessions [oneAnswer 1 first, oneAnswer 1 second]).failures = [] :=
    List.mergeSort_of_pairwise .nil
  rw [scores, breakdowns_ofSessions_pair, hfailures]
  rfl

/-- **Not all changes are seen** where two sessions have the same identifier: here the total of the
first moves from 10 to 15. -/
theorem not_forall_silent_perm :
    ¬ ∀ (settings settings' : ScoringSettings) (sessions sessions' : List Session)
      (current baseline : Report), Batch.Produces settings sessions current →
        Batch.Produces settings' sessions' baseline →
          (current.compare baseline 0.0).Silent → current.scores.Perm baseline.scores := by
  intro h
  have hids (first second : String) :
      (ofSessions [oneAnswer 1 first, oneAnswer 1 second]).sessionIds.Perm [1, 1] :=
    (produces_ofSessions _).sessionIds_perm
  -- With one identifier for both sessions, the last total is that of the second.
  have hlast (first second : String) :
      (ofSessions [oneAnswer 1 first, oneAnswer 1 second]).lastTotal 1
        = (recorded .sum (oneAnswer 1 second)).total := by
    rw [lastTotal, breakdowns_ofSessions_pair]
    rfl
  have hsilent : ((ofSessions [oneAnswer 1 "15", oneAnswer 1 "20"]).compare
      (ofSessions [oneAnswer 1 "10", oneAnswer 1 "20"]) 0.0).Silent := by
    rw [silent_compare_iff]
    refine ⟨fun id => by rw [(hids _ _).mem_iff, (hids _ _).mem_iff], fun id hid _ => ?_⟩
    obtain rfl : id = 1 := by simpa using (hids _ _).mem_iff.1 hid
    rw [hlast, hlast]
    decide +kernel
  have hperm := h _ _ _ _ _ _ (produces_ofSessions _) (produces_ofSessions _) hsilent
  rw [scores_ofSessions_pair, scores_ofSessions_pair] at hperm
  -- The total of the first session differs from both totals of the baseline.
  have hmoves (other : String)
      (heq : (recorded .sum (oneAnswer 1 "15")).total.map Decimal.value
        = (recorded .sum (oneAnswer 1 other)).total.map Decimal.value) :
      differs 0.0 (recorded .sum (oneAnswer 1 other)).total
        (recorded .sum (oneAnswer 1 "15")).total = false :=
    (differs_zero_eq_false_iff (fun _ => Breakdown.isFinite_total_fold)
      (fun _ => Breakdown.isFinite_total_fold)).2 heq
  obtain heq | heq := List.mem_pair.1 (hperm.mem_iff.1 List.mem_cons_self)
  · exact absurd (hmoves "10" (Prod.mk.inj heq).2) (by decide +kernel)
  · exact absurd (hmoves "20" (Prod.mk.inj heq).2) (by decide +kernel)

end Report

end Scoresheet
