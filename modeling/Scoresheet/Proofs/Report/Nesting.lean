import Scoresheet.Proofs.Session.Codec
import Scoresheet.Report.Codec

/-!
# How deep reports nest

A value that is read whole may not nest deeper than `Json.depthLimit`. The JSON of a report stays
far below that limit, whatever the batch: only its lists and tables grow.

* `Report.nesting_toJson_le` — a report nests six deep at most.
* `Breakdown.nesting_toJson_le` — a breakdown nests four deep at most.
-/

namespace Scoresheet

open Json

section Nesting

variable {α : Type} {encode : α → Value} {n : ℕ}

theorem nesting_index_le {κ : Type} [Ord κ] {name : κ → String} (h : ∀ a, (encode a).nesting ≤ n)
    (index : Index κ α) :
    (Value.object (index.entries.map fun e => (name e.1, encode e.2))).nesting ≤ n + 1 :=
  Value.nesting_object_le.2 (List.forall_mem_map.2 fun e _ => h e.2)

@[simp] theorem nesting_countValue (n : ℕ) : (countValue n).nesting = 0 := rfl

@[simp] theorem nesting_floatOption (x : Option Float) : (floatOption x).nesting = 0 :=
  Nat.le_zero.1 (nesting_ofOption_le (fun _ => le_refl 0) x)

end Nesting

theorem AnswerKey.nesting_toJson_le (k : AnswerKey) : k.toJson.nesting ≤ 1 :=
  Value.nesting_object_le.2 (by simp)

theorem Outcome.nesting_toJson_le (o : Outcome) : o.toJson.nesting ≤ 1 := by
  cases o <;> exact Value.nesting_object_le.2 (by simp)

theorem Entry.nesting_toJson_le (e : Entry) : e.toJson.nesting ≤ 2 :=
  Value.nesting_object_le.2 (by simp [e.key.nesting_toJson_le, e.outcome.nesting_toJson_le])

/-- **A breakdown** nests four deep at most. -/
theorem Breakdown.nesting_toJson_le (b : Breakdown) : b.toJson.nesting ≤ 4 :=
  Value.nesting_object_le.2 (by simp [nesting_list_le Entry.nesting_toJson_le b.entries])

theorem TotalSummary.nesting_toJson_le (t : TotalSummary) : t.toJson.nesting ≤ 1 :=
  Value.nesting_object_le.2 (by simp)

theorem QuestionStatistics.nesting_toJson_le (q : QuestionStatistics) : q.toJson.nesting ≤ 1 :=
  Value.nesting_object_le.2 (by simp)

theorem CategoryStatistics.nesting_toJson_le (c : CategoryStatistics) : c.toJson.nesting ≤ 1 :=
  Value.nesting_object_le.2 (by simp)

theorem Statistics.nesting_toJson_le (s : Statistics) : s.toJson.nesting ≤ 3 := by
  have htotals := nesting_ofOption_le TotalSummary.nesting_toJson_le s.totals
  refine Value.nesting_object_le.2 ?_
  simp only [List.forall_mem_cons, nesting_countValue]
  exact ⟨by decide, by decide, by decide, by decide, htotals.trans (by decide),
    nesting_index_le QuestionStatistics.nesting_toJson_le s.perQuestion,
    nesting_index_le CategoryStatistics.nesting_toJson_le s.perCategory, fun _ h => nomatch h⟩

theorem SessionFailure.nesting_toJson_le (f : SessionFailure) : f.toJson.nesting ≤ 2 :=
  Value.nesting_object_le.2 (by simp [nesting_ofOption_le AnswerKey.nesting_toJson_le f.answer])

theorem ScoringSettings.nesting_toJson_le (s : ScoringSettings) : s.toJson.nesting ≤ 1 :=
  Value.nesting_object_le.2 (by simp)

/-- **A report** nests six deep at most. -/
theorem Report.nesting_toJson_le (r : Report) : r.toJson.nesting ≤ 6 := by
  have hbreakdowns := nesting_list_le Breakdown.nesting_toJson_le r.breakdowns
  have hfailures := nesting_list_le SessionFailure.nesting_toJson_le r.failures
  refine Value.nesting_object_le.2 ?_
  simp only [List.forall_mem_cons, Value.nesting_string, nesting_countValue]
  exact ⟨by decide, by decide, r.settings.nesting_toJson_le.trans (by decide), hbreakdowns,
    hfailures.trans (by decide), r.statistics.nesting_toJson_le.trans (by decide), by decide,
    fun _ h => nomatch h⟩

end Scoresheet
