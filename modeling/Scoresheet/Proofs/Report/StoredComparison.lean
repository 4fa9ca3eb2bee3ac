import Scoresheet.Proofs.Decimal.Overflow
import Scoresheet.Proofs.Report.Codec
import Scoresheet.Proofs.Report.Exchange

/-!
# Comparisons are read back

A comparison is written as JSON, and what is null there is missing when it is read. A delta is null
if a total is missing, and a delta that is infinite is null as well: the difference of two finite
totals may leave the range of floats.

* `TotalChange.stored`, `Comparison.stored` — what is left of a change and of a comparison when they
  are read back.
* `TotalChange.Measured` — a change with both totals whose exact difference is within the range.
* `TotalChange.Found` — what a comparison of finite totals finds, and when its delta is finite.
* `Report.storable_stored_compare` — what is left of such a comparison can be stored.
* `Report.decode_compare` — its texts are read as what is left of it, which is all of it exactly if
  every change with both totals is measured.
* `Report.not_forall_decode_compare` — two finite totals that are too far apart.
-/

namespace Scoresheet

open Json

/-! ### What is left of a comparison -/

/-- What is left of a change when it is read back: a delta only if it is finite. -/
def TotalChange.stored (c : TotalChange) : TotalChange :=
  { c with delta := c.delta.filter Float.isFinite }

/-- **What is left of a comparison** when it is read back. -/
def Comparison.stored (c : Comparison) : Comparison :=
  { c with changes := c.changes.map TotalChange.stored }

/-- The text of a float that may be missing is null unless there is one and it is finite. -/
theorem writtenAs_filter_isFinite (x : Option Float) :
    (floatOption x).WrittenAs (floatOption (x.filter Float.isFinite)) := by
  cases x with
  | none => exact .refl _
  | some x =>
    cases hx : x.isFinite with
    | true =>
      rw [Option.filter_some, if_pos hx]
      exact .refl _
    | false =>
      rw [Option.filter_some, if_neg (by simp [hx])]
      exact .null_of_not_isFinite hx

theorem TotalChange.writtenAs_stored (c : TotalChange) : c.toJson.WrittenAs c.stored.toJson :=
  .object (.cons ⟨rfl, .refl _⟩ (.cons ⟨rfl, .refl _⟩ (.cons ⟨rfl, .refl _⟩
    (.cons ⟨rfl, writtenAs_filter_isFinite c.delta⟩ .nil))))

/-- **A comparison has the texts** of what is left of it. -/
theorem Comparison.writtenAs_stored (c : Comparison) : c.toJson.WrittenAs c.stored.toJson := by
  have hchanges : (Value.array (c.changes.map TotalChange.toJson)).WrittenAs
      (.array ((c.changes.map TotalChange.stored).map TotalChange.toJson)) := by
    refine .array ?_
    rw [List.map_map, List.forall₂_map_left_iff, List.forall₂_map_right_iff, List.forall₂_same]
    exact fun change _ => change.writtenAs_stored
  exact .object (.cons ⟨rfl, hchanges⟩ (.cons ⟨rfl, .refl _⟩ (.cons ⟨rfl, .refl _⟩
    (.cons ⟨rfl, .refl _⟩ .nil))))

/-- A float that may be missing has the text `null` unless there is one and it is finite. -/
theorem compact_floatOption_eq_null_iff {x : Option Float} :
    (floatOption x).compact = "null" ↔ ∀ y ∈ x, y.isFinite = false := by
  cases x with
  | none => exact iff_of_true rfl nofun
  | some y =>
    simp only [Option.mem_some_iff, forall_eq']
    constructor
    · intro htext
      rw [← Bool.not_eq_true]
      intro hy
      -- A text tells its value, and this one is that of a float.
      have hfloat : (Value.float y).Spelled "null".toList := by
        rw [← htext]
        exact (Value.written_compact (.float y)).spelled (Value.storable_float.2 hy)
      exact nomatch hfloat.unique (w := .null) (.scalar .null)
    · intro hy
      show String.ofList (floatText y) = "null"
      rw [floatText, hy]
      rfl

/-! ### Deltas -/

/-- **A change is measured** if the difference of its totals is within the range of floats, as far
as it has both. -/
def TotalChange.Measured (c : TotalChange) : Prop :=
  ∀ x y, c.baseline = some x → c.current = some y →
    Decimal.WithinRange (Decimal.value y - Decimal.value x)

/-- What a comparison of finite totals finds: finite totals, and the delta is theirs. -/
structure TotalChange.Found (c : TotalChange) : Prop where
  baseline : ∀ x ∈ c.baseline, x.isFinite = true
  current : ∀ x ∈ c.current, x.isFinite = true
  delta : c.delta = delta? c.baseline c.current

/-- A delta that was found is finite exactly if the change is measured. -/
theorem TotalChange.Found.isFinite_delta_iff {c : TotalChange} (h : c.Found) :
    (∀ d ∈ c.delta, d.isFinite = true) ↔ c.Measured := by
  rw [h.delta, Measured]
  cases hbaseline : c.baseline with
  -- With a total missing on a side there is no delta to overflow.
  | none => simp [delta?]
  | some x =>
    cases hcurrent : c.current with
    | none => simp [delta?]
    | some y =>
      simp [delta?, Decimal.isFinite_sub_iff (h.current y hcurrent) (h.baseline x hbaseline)]

theorem TotalChange.stored_eq_self_iff {c : TotalChange} :
    c.stored = c ↔ ∀ d ∈ c.delta, d.isFinite = true := by
  obtain ⟨id, baseline, current, delta⟩ := c
  cases delta <;> simp [stored, Option.filter_some]

theorem Comparison.stored_eq_self_iff {c : Comparison} :
    c.stored = c ↔ ∀ change ∈ c.changes, change.stored = change := by
  obtain ⟨changes, unchanged, new, removed⟩ := c
  simpa [stored] using List.map_inj_left (l := changes) (f := TotalChange.stored) (g := id)

theorem TotalChange.Found.compact_delta_eq_null_iff {c : TotalChange} (h : c.Found) :
    (floatOption c.delta).compact = "null" ↔
      c.baseline = none ∨ c.current = none ∨ ¬ c.Measured := by
  rw [compact_floatOption_eq_null_iff, ← h.isFinite_delta_iff, h.delta]
  cases c.baseline with
  | none => simp [delta?]
  | some x =>
    cases c.current with
    | none => simp [delta?]
    | some y => simp [delta?]

namespace Report

variable {current baseline : Report}

theorem found_of_mem_changes (hcurrent : current.FiniteTotals) (hbaseline : baseline.FiniteTotals)
    {threshold : Float} {change : TotalChange}
    (h : change ∈ (current.compare baseline threshold).changes) : change.Found := by
  rw [compare_eq] at h
  -- A change compares the last totals of a session that both reports have.
  obtain ⟨s, hs, rfl⟩ := List.mem_map.1 h
  obtain ⟨-, -, hold, htotal⟩ := mem_shared.1 (List.mem_of_mem_filter hs)
  refine ⟨?_, ?_, rfl⟩
  · rw [hold]
    exact hbaseline.isFinite_lastTotal
  · rw [htotal]
    exact hcurrent.isFinite_lastTotal

/-- No more sessions are unchanged than the current report has. -/
theorem unchanged_le (current baseline : Report) (threshold : Float) :
    (current.compare baseline threshold).unchanged ≤ current.sessionIds.length := by
  rw [compare_eq]
  calc ((current.shared baseline).filter fun s => !differs threshold s.2.1 s.2.2).length
      ≤ (current.shared baseline).length := List.length_filter_le ..
    _ ≤ current.totals.keys.length := by
        rw [← List.length_map Prod.fst, map_fst_shared]
        exact List.length_filter_le ..
    _ ≤ current.sessionIds.length := by
        rw [length_keys_totals]
        exact (List.dedup_sublist _).length_le

theorem storable_stored_compare (hcurrent : current.FiniteTotals)
    (hbaseline : baseline.FiniteTotals) (hcount : current.sessionIds.length < 2 ^ 64)
    (threshold : Float) : (current.compare baseline threshold).stored.Storable where
  baseline := by
    refine List.forall_mem_map.2 fun change hchange => ?_
    exact (found_of_mem_changes hcurrent hbaseline hchange).baseline
  current := by
    refine List.forall_mem_map.2 fun change hchange => ?_
    exact (found_of_mem_changes hcurrent hbaseline hchange).current
  delta := by
    refine List.forall_mem_map.2 fun change _ x hx => ?_
    exact (Option.mem_filter_iff.1 hx).2
  unchanged := (unchanged_le current baseline threshold).trans_lt hcount

/-- **What is written of a comparison** is read as what is left of it. If all totals are finite,
that is the comparison itself exactly if every change is measured, whatever the threshold is. The
delta of a change is written as null if and only if a total is missing or the change is not
measured. -/
theorem decode_compare (hcurrent : current.FiniteTotals) (hbaseline : baseline.FiniteTotals)
    (hcount : current.sessionIds.length < 2 ^ 64) (threshold : Float) :
    let c := current.compare baseline threshold
    decode Comparison.decoder c.toJson.compact = .ok c.stored ∧
    decode Comparison.decoder c.toJson.pretty = .ok c.stored ∧
    (c.stored = c ↔ ∀ change ∈ c.changes, change.Measured) ∧
    ∀ change ∈ c.changes, ((floatOption change.delta).compact = "null" ↔
      change.baseline = none ∨ change.current = none ∨ ¬ change.Measured) := by
  intro c
  have hfound {change : TotalChange} (h : change ∈ c.changes) : change.Found :=
    found_of_mem_changes hcurrent hbaseline h
  have hstorable : c.stored.Storable :=
    storable_stored_compare hcurrent hbaseline hcount threshold
  -- Both texts are texts of what is left, and that can be stored.
  have hread {text : String} (h : c.toJson.Written text.toList) :
      decode Comparison.decoder text = .ok c.stored :=
    decode_of_written (Comparison.storable_toJson hstorable)
      (fun node hnode => Comparison.decodes hstorable .text node hnode.stands)
      (c.writtenAs_stored _ h)
  refine ⟨hread (Value.written_compact _), hread (Value.written_pretty _), ?_,
    fun change hchange => (hfound hchange).compact_delta_eq_null_iff⟩
  rw [Comparison.stored_eq_self_iff]
  exact forall₂_congr fun change hchange =>
    TotalChange.stored_eq_self_iff.trans (hfound hchange).isFinite_delta_iff

/-- Of a session that moved from one end of the range to the other, one that moved by two, and one
that lost its total, only the second keeps its delta. -/
theorem decode_compare_far :
    let current := ofTotals [(1, some 1e308), (2, some 3), (3, none)]
    let baseline := ofTotals [(1, some (-1e308)), (2, some 1), (3, some 1)]
    ∃ c, decode Comparison.decoder (current.compare baseline 0.5).toJson.compact = .ok c ∧
      c.changes.map TotalChange.delta = [none, some 2, none] ∧
      ∃ change ∈ (current.compare baseline 0.5).changes, ¬ change.Measured := by
  intro current baseline
  -- The delta of the first session overflows, so the comparison is not read back as it was.
  have hlost : (current.compare baseline 0.5).stored ≠ current.compare baseline 0.5 := by
    intro heq
    have hdeltas : (current.compare baseline 0.5).stored.changes.map TotalChange.delta
        ≠ (current.compare baseline 0.5).changes.map TotalChange.delta := by decide +kernel
    exact hdeltas (by rw [heq])
  have hcurrent : current.FiniteTotals := by decide +kernel
  have hbaseline : baseline.FiniteTotals := by decide +kernel
  obtain ⟨hcompact, -, hself, -⟩ := decode_compare hcurrent hbaseline (by decide) 0.5
  refine ⟨_, hcompact, by decide +kernel, ?_⟩
  -- If every change were measured, the comparison would be read back as it was.
  by_contra hall
  push Not at hall
  exact hlost (hself.2 hall)

/-- **A comparison need not be read back,** and a delta may be null where no total is missing. -/
theorem not_forall_decode_compare :
    ¬ ∀ (current baseline : Report) (threshold : Float), (0.0 : Float) ≤ threshold →
      current.FiniteTotals → baseline.FiniteTotals →
      let c := current.compare baseline threshold
      decode Comparison.decoder c.toJson.compact = .ok c ∧
      ∀ change ∈ c.changes, ((floatOption change.delta).compact = "null" ↔
        change.baseline = none ∨ change.current = none) := by
  intro h
  obtain ⟨-, hnull⟩ := h (ofTotals [(1, some 1e308)]) (ofTotals [(1, some (-1e308))]) 0.0
    (by decide +kernel) (by decide +kernel) (by decide +kernel)
  -- Both totals are there and their difference overflows, so the delta is written as null.
  have hchange : ∃ change ∈ ((ofTotals [(1, some 1e308)]).compare
      (ofTotals [(1, some (-1e308))]) 0.0).changes,
      (floatOption change.delta).compact = "null" ∧
        ¬ (change.baseline = none ∨ change.current = none) := by decide +kernel
  obtain ⟨change, hmem, htext, hthere⟩ := hchange
  exact hthere ((hnull change hmem).1 htext)

end Report

end Scoresheet
