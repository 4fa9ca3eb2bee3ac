import Mathlib.Data.List.Dedup
import Scoresheet.Proofs.Index
import Scoresheet.Report.Comparison

/-!
# What a comparison of reports says

A comparison is made of two indexes, which hold a report's totals by session. What is found in them
is said of the reports themselves: which identifiers they hold, and the last total of each.

* `Report.sessionIds`, `Report.lastTotal` — what of a report is compared.
* `Report.FiniteTotals` — the reports whose totals are all finite.
* `Report.find?_totals` — the index of totals in these terms.
* `Moved` — whether a total moved.
* `Report.compare_eq` — a comparison in terms of the sessions that both reports have.
* `Report.classifies_compare` — every session of either report is classified, and once.
-/

namespace Scoresheet

/-! ### Totals by session -/

namespace Report

/-- The identifiers in a report, each as often as it occurs. -/
def sessionIds (report : Report) : List Int64 :=
  report.breakdowns.map Breakdown.sessionId ++ report.failures.map SessionFailure.sessionId

/-- **The total of a session:** that of the last breakdown with its identifier. A session that only
has failures has none. -/
def lastTotal (report : Report) (id : Int64) : Option Float :=
  (report.breakdowns.filter fun b => b.sessionId = id).getLast?.bind Breakdown.total

theorem getLast?_breakdowns_eq_none_iff {report : Report} {id : Int64} :
    (report.breakdowns.filter fun b => b.sessionId = id).getLast? = none ↔
      id ∉ report.breakdowns.map Breakdown.sessionId := by
  rw [List.getLast?_eq_none_iff, List.filter_eq_nil_iff]
  simp

/-- A session without a breakdown has no total. -/
theorem lastTotal_of_notMem {report : Report} {id : Int64}
    (h : id ∉ report.breakdowns.map Breakdown.sessionId) : report.lastTotal id = none := by
  rw [lastTotal, getLast?_breakdowns_eq_none_iff.2 h]
  rfl

/-- A session that is not in the report has no total. -/
theorem lastTotal_of_notMem_sessionIds {report : Report} {id : Int64}
    (h : id ∉ report.sessionIds) : report.lastTotal id = none :=
  lastTotal_of_notMem fun hmem => h (List.mem_append_left _ hmem)

/-- The last total of a session is one of a breakdown. -/
theorem exists_of_lastTotal {report : Report} {id : Int64} {x : Float}
    (h : report.lastTotal id = some x) : ∃ b ∈ report.breakdowns, b.total = some x := by
  obtain ⟨b, hlast, htotal⟩ := Option.bind_eq_some_iff.1 h
  exact ⟨b, (List.mem_filter.1 (List.mem_of_getLast? hlast)).1, htotal⟩

/-- **The reports whose totals are all finite.** -/
def FiniteTotals (report : Report) : Prop :=
  ∀ b ∈ report.breakdowns, ∀ x ∈ b.total, x.isFinite = true

instance (report : Report) : Decidable report.FiniteTotals :=
  inferInstanceAs (Decidable (∀ b ∈ report.breakdowns, ∀ x ∈ b.total, x.isFinite = true))

theorem FiniteTotals.isFinite_lastTotal {report : Report} (h : report.FiniteTotals) {id : Int64}
    (x : Float) (hx : report.lastTotal id = some x) : x.isFinite = true := by
  obtain ⟨b, hb, htotal⟩ := exists_of_lastTotal hx
  exact h b hb x htotal

/-- **What is compared** are the last totals of the sessions in a report. -/
theorem find?_totals (report : Report) (id : Int64) :
    report.totals.find? id
      = if id ∈ report.sessionIds then some (report.lastTotal id) else none := by
  -- The failures are entered last, and only under identifiers that no breakdown has.
  have hfailures : report.totals = (report.failures.map SessionFailure.sessionId).foldl
      (fun index k => index.insertNew k none)
      (.ofList (report.breakdowns.map fun b => (b.sessionId, b.total))) := by
    rw [List.foldl_map]
    rfl
  have hbreakdowns : (Index.ofList (report.breakdowns.map fun b => (b.sessionId, b.total))).find? id
      = (report.breakdowns.filter fun b => b.sessionId = id).getLast?.map Breakdown.total := by
    rw [Index.ofList, Index.find?_foldl_insert, List.filter_map, List.getLast?_map,
      Option.map_map]
    exact Option.or_none
  rw [hfailures, Index.find?_foldl_insertNew, hbreakdowns]
  unfold lastTotal sessionIds
  cases hlast : (report.breakdowns.filter fun b => b.sessionId = id).getLast? with
  | some b =>
    have hbreakdown : id ∈ report.breakdowns.map Breakdown.sessionId := by
      by_contra hnone
      rw [getLast?_breakdowns_eq_none_iff.2 hnone] at hlast
      cases hlast
    rw [if_pos (List.mem_append_left _ hbreakdown)]
    rfl
  | none => simp [getLast?_breakdowns_eq_none_iff.1 hlast]

theorem mem_keys_totals {report : Report} {id : Int64} :
    id ∈ report.totals.keys ↔ id ∈ report.sessionIds := by
  rw [Index.mem_keys_iff, find?_totals]
  split <;> simp [*]

theorem find?_totals_isNone (report : Report) (id : Int64) :
    (report.totals.find? id).isNone = decide (id ∉ report.sessionIds) := by
  rw [find?_totals]
  split <;> simp [*]

theorem pairwise_keys_totals (report : Report) : report.totals.keys.Pairwise (· < ·) :=
  report.totals.pairwise_keys.imp Std.compare_eq_lt.1

theorem nodup_keys_totals (report : Report) : report.totals.keys.Nodup :=
  report.totals.nodup_keys

/-- Each identifier of a report is compared once. -/
theorem length_keys_totals (report : Report) :
    report.totals.keys.length = report.sessionIds.dedup.length := by
  refine List.Perm.length_eq ?_
  rw [List.perm_ext_iff_of_nodup report.nodup_keys_totals (List.nodup_dedup _)]
  intro id
  rw [mem_keys_totals, List.mem_dedup]

end Report

/-! ### What a comparison says of each session -/

/-- **Whether a total moved:** it was gained or lost, or it moved by more than the threshold. -/
def Moved (threshold : Float) (before after : Option Float) : Prop :=
  before.isSome ≠ after.isSome ∨
    ∃ b a, before = some b ∧ after = some a ∧ threshold < (a - b).abs

theorem differs_eq_true_iff {threshold : Float} {before after : Option Float} :
    differs threshold before after = true ↔ Moved threshold before after := by
  unfold Moved
  cases before <;> cases after <;> simp [differs]

theorem isSome_delta? (before after : Option Float) :
    (delta? before after).isSome = true ↔ before.isSome = true ∧ after.isSome = true := by
  cases before <;> cases after <;> simp [delta?]

/-- **The comparison classifies the sessions** of both reports, each once. -/
structure Comparison.Classifies (c : Comparison) (current baseline : Report) (threshold : Float) :
    Prop where
  new : ∀ id, id ∈ c.newSessions ↔ id ∈ current.sessionIds ∧ id ∉ baseline.sessionIds
  removed : ∀ id, id ∈ c.removedSessions ↔ id ∈ baseline.sessionIds ∧ id ∉ current.sessionIds
  changed : ∀ change, change ∈ c.changes ↔
    change.sessionId ∈ current.sessionIds ∧ change.sessionId ∈ baseline.sessionIds ∧
      Moved threshold change.baseline change.current ∧
      change.baseline = baseline.lastTotal change.sessionId ∧
      change.current = current.lastTotal change.sessionId ∧
      change.delta = delta? change.baseline change.current
  delta : ∀ change ∈ c.changes, change.delta.isSome = true ↔
    change.baseline.isSome = true ∧ change.current.isSome = true
  new_ascending : c.newSessions.Pairwise (· < ·)
  removed_ascending : c.removedSessions.Pairwise (· < ·)
  changed_ascending : (c.changes.map TotalChange.sessionId).Pairwise (· < ·)
  current_counted : c.changes.length + c.unchanged + c.newSessions.length
    = current.sessionIds.dedup.length
  baseline_counted : c.changes.length + c.unchanged + c.removedSessions.length
    = baseline.sessionIds.dedup.length

namespace Report

/-- The sessions that two reports share, with their totals before and after. -/
def shared (current baseline : Report) : List (Int64 × Option Float × Option Float) :=
  current.totals.entries.filterMap fun entry =>
    (baseline.totals.find? entry.1).map fun old => (entry.1, old, entry.2)

/-- **A comparison** in terms of the shared sessions and of the identifiers in the reports. -/
theorem compare_eq (current baseline : Report) (threshold : Float) :
    current.compare baseline threshold =
      { changes := ((current.shared baseline).filter fun s => differs threshold s.2.1 s.2.2).map
          fun s => ⟨s.1, s.2.1, s.2.2, delta? s.2.1 s.2.2⟩
        unchanged :=
          ((current.shared baseline).filter fun s => !differs threshold s.2.1 s.2.2).length
        newSessions := current.totals.keys.filter fun id => id ∉ baseline.sessionIds
        removedSessions := baseline.totals.keys.filter fun id => id ∉ current.sessionIds } := by
  simp only [compare, List.partition_eq_filter_filter, find?_totals_isNone]
  rfl

theorem mem_shared {current baseline : Report} {id : Int64} {old total : Option Float} :
    (id, old, total) ∈ current.shared baseline ↔
      id ∈ current.sessionIds ∧ id ∈ baseline.sessionIds ∧
        old = baseline.lastTotal id ∧ total = current.lastTotal id := by
  -- A shared session is an entry of both tables of totals.
  have hmem : (id, old, total) ∈ current.shared baseline ↔
      current.totals.find? id = some total ∧ baseline.totals.find? id = some old := by
    rw [shared, List.mem_filterMap, Index.find?_eq_some_iff]
    constructor
    · rintro ⟨⟨k, t⟩, hentry, hfound⟩
      obtain ⟨o, hfind, heq⟩ := Option.map_eq_some_iff.1 hfound
      cases heq
      exact ⟨hentry, hfind⟩
    · rintro ⟨hentry, hfind⟩
      exact ⟨(id, total), hentry, Option.map_eq_some_iff.2 ⟨old, hfind, rfl⟩⟩
  rw [hmem, find?_totals, find?_totals]
  -- A table holds the last total of every identifier that the report has.
  by_cases hcurrent : id ∈ current.sessionIds <;> by_cases hbaseline : id ∈ baseline.sessionIds <;>
    simp [hcurrent, hbaseline, eq_comm, and_comm]

/-- The shared sessions are those of the current report that the baseline has. -/
theorem map_fst_shared (current baseline : Report) :
    (current.shared baseline).map Prod.fst
      = current.totals.keys.filter fun id => id ∈ baseline.sessionIds := by
  unfold shared Index.keys
  induction current.totals.entries with
  | nil => rfl
  | cons entry rest ih =>
    rw [List.filterMap_cons, List.map_cons, List.filter_cons, ← ih]
    by_cases hid : entry.1 ∈ baseline.sessionIds <;> simp [hid, find?_totals]

/-- The shared sessions are as many as those of the baseline that the current report has. -/
theorem length_shared (current baseline : Report) :
    (current.shared baseline).length
      = (baseline.totals.keys.filter fun id => id ∈ current.sessionIds).length := by
  rw [← List.length_map Prod.fst, map_fst_shared]
  refine List.Perm.length_eq ?_
  rw [List.perm_ext_iff_of_nodup (current.nodup_keys_totals.filter _)
    (baseline.nodup_keys_totals.filter _)]
  intro id
  simp only [List.mem_filter, mem_keys_totals, decide_eq_true_eq]
  exact and_comm

/-- Some of a report's sessions are in another report, and the others are not. -/
theorem length_filter_keys (report : Report) (ids : List Int64) :
    (report.totals.keys.filter fun id => id ∈ ids).length
        + (report.totals.keys.filter fun id => id ∉ ids).length
      = report.sessionIds.dedup.length := by
  rw [← length_keys_totals, List.length_eq_length_filter_add (l := report.totals.keys)
    fun id => decide (id ∈ ids)]
  simp only [decide_not]

/-- **Every comparison classifies the sessions.** A session that only one report has is new or
removed; one that both have is changed, if its total was gained or lost or moved by more than the
threshold, and is counted as unchanged otherwise. All three lists ascend, so that no session is in
one of them twice, and with those that are only counted they make up the sessions of either report.
-/
theorem classifies_compare (current baseline : Report) (threshold : Float) :
    (current.compare baseline threshold).Classifies current baseline threshold := by
  -- The changed and the unchanged sessions are the shared sessions split in two.
  have hshared : ((current.shared baseline).filter fun s => differs threshold s.2.1 s.2.2).length
      + ((current.shared baseline).filter fun s => !differs threshold s.2.1 s.2.2).length
      = (current.shared baseline).length :=
    (List.length_eq_length_filter_add _).symm
  rw [compare_eq]
  constructor
  case new => intro id; simp [mem_keys_totals]
  case removed => intro id; simp [mem_keys_totals]
  case changed =>
    rintro ⟨id, before, after, delta⟩
    simp only [List.mem_map, List.mem_filter, Prod.exists, mem_shared, differs_eq_true_iff]
    constructor
    · rintro ⟨id', old, total, ⟨⟨hcurrent, hbaseline, hold, htotal⟩, hmoved⟩, heq⟩
      cases heq
      exact ⟨hcurrent, hbaseline, hmoved, hold, htotal, rfl⟩
    · rintro ⟨hcurrent, hbaseline, hmoved, hold, htotal, hdelta⟩
      exact ⟨id, before, after, ⟨⟨hcurrent, hbaseline, hold, htotal⟩, hmoved⟩, by rw [hdelta]⟩
  case delta =>
    intro change hchange
    obtain ⟨s, -, rfl⟩ := List.mem_map.1 hchange
    exact isSome_delta? _ _
  case new_ascending => exact current.pairwise_keys_totals.filter _
  case removed_ascending => exact baseline.pairwise_keys_totals.filter _
  case changed_ascending =>
    -- The sessions are walked in the order of the table, and the changed ones are a part of them.
    rw [List.map_map]
    have hids : ((current.shared baseline).map Prod.fst).Pairwise (· < ·) := by
      rw [map_fst_shared]
      exact current.pairwise_keys_totals.filter _
    exact hids.sublist (List.filter_sublist.map _)
  case current_counted =>
    rw [List.length_map, hshared, ← List.length_map Prod.fst, map_fst_shared]
    exact length_filter_keys ..
  case baseline_counted =>
    rw [List.length_map, hshared, length_shared]
    exact length_filter_keys ..

end Report

end Scoresheet
