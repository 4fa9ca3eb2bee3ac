import Mathlib.Data.List.Basic
import Scoresheet.Proofs.Report.Escaping
import Scoresheet.Report.Page

/-!
# The markup of the report page

No text of a session gets to be markup of the page: two reports that differ in their texts alone
have pages with the same markup.

A report *redacted* is the report with its texts emptied: the questions and formulas of the entries,
the messages of what failed, and the questions of the statistics. Two reports differ in these texts
alone exactly where they are the same redacted.

* `Report.pieces_redacted` — the page of a redacted report is the page of the report with the texts
  of its pieces emptied.
* `Report.markupOf_html_eq` — reports that are the same redacted have pages with the same markup.

The proof follows the page. For every section there is one lemma, which says that redacting the
section's argument does to its pieces what redacting them does (`_redacted`). A place where a text
went into a piece of markup would be one where that lemma fails.
-/

namespace Scoresheet

open Html (Piece markupOf)

/-! ### Redaction -/

/-- An outcome without its message. -/
def Outcome.redacted : Outcome → Outcome
  | scored value => scored value
  | failed kind _ => failed kind ""

/-- An entry without its texts. -/
def Entry.redacted (e : Entry) : Entry :=
  { e with question := "", formula := "", outcome := e.outcome.redacted }

/-- A breakdown without the texts of its entries. -/
def Breakdown.redacted (b : Breakdown) : Breakdown :=
  { b with entries := b.entries.map Entry.redacted }

/-- The failure of a session without its message. -/
def SessionFailure.redacted (f : SessionFailure) : SessionFailure :=
  { f with message := "" }

/-- The statistics of a question without the question. -/
def QuestionStatistics.redacted (q : QuestionStatistics) : QuestionStatistics :=
  { q with question := "" }

/-- The statistics of a batch without the questions. -/
def Statistics.redacted (s : Statistics) : Statistics :=
  { s with perQuestion := s.perQuestion.mapValues QuestionStatistics.redacted }

/-- **A report without its texts.** -/
def Report.redacted (r : Report) : Report :=
  { r with
    breakdowns := r.breakdowns.map Breakdown.redacted
    failures := r.failures.map SessionFailure.redacted
    statistics := r.statistics.redacted }

namespace Page

/-! ### The summary -/

/-- A bar shows its question as a text. -/
theorem bar_redacted (peak : Float) (position : Nat) (q : QuestionStatistics) :
    (bar peak position q.redacted).map Piece.redacted =
      (bar peak position q).map Piece.redacted := by
  simp only [bar, QuestionStatistics.redacted, List.map_cons, List.map_nil, Piece.redacted]
  rfl

/-- The size of the chart and the longest bar follow from the means. -/
theorem chart_redacted (s : Statistics) :
    (chart s.redacted).map Piece.redacted = (chart s).map Piece.redacted := by
  -- The bars are drawn from the questions, whose means redaction keeps.
  have questions : s.redacted.perQuestion.entries.map Prod.snd =
      (s.perQuestion.entries.map Prod.snd).map QuestionStatistics.redacted := by
    simp [Statistics.redacted, Index.mapValues]
  unfold chart
  rw [questions]
  generalize s.perQuestion.entries.map Prod.snd = qs
  -- The tallest bar depends on the means alone.
  have peak : (qs.map QuestionStatistics.redacted).foldl
      (fun peak q => Formula.greater peak q.mean.abs) 0.0 =
        qs.foldl (fun peak q => Formula.greater peak q.mean.abs) 0.0 := List.foldl_map
  simp only [List.isEmpty_map, List.length_map, peak]
  split
  · rfl
  · simp only [List.map_append, List.zipIdx_map, List.flatMap_map, List.map_flatMap, Prod.map,
      bar_redacted, id]

/-- The summary of the batch. -/
theorem dashboard_redacted (s : Statistics) :
    (dashboard s.redacted).map Piece.redacted = (dashboard s).map Piece.redacted := by
  have table : summaryTable s.redacted = summaryTable s := rfl
  have categories : categoryTable s.redacted = categoryTable s := rfl
  simp only [dashboard, List.map_append, table, categories, chart_redacted]

/-! ### The sessions -/

/-- The row of a session with a breakdown holds no text. -/
theorem breakdownRow_redacted (b : Breakdown) : breakdownRow b.redacted = breakdownRow b := by
  simp [breakdownRow, Breakdown.redacted, Breakdown.isComplete]

/-- The row of a session without a breakdown shows its message as a text. -/
theorem failureRow_redacted (f : SessionFailure) :
    (failureRow f.redacted).map Piece.redacted = (failureRow f).map Piece.redacted := by
  simp [failureRow, SessionFailure.redacted, textCell, row, cell, Piece.redacted]

/-- The row of an answer shows its question, its formula and its message as texts. -/
theorem entryRow_redacted (e : Entry) :
    (entryRow e.redacted).map Piece.redacted = (entryRow e).map Piece.redacted := by
  obtain ⟨key, question, formula, outcome⟩ := e
  cases outcome with
  | scored value =>
    simp [entryRow, Entry.redacted, Outcome.redacted, textCell, row, cell, Piece.redacted]
  | failed kind message =>
    simp [entryRow, Entry.redacted, Outcome.redacted, textCell, row, cell, Piece.redacted]

/-- The answers of a session. -/
theorem details_redacted (b : Breakdown) :
    (details b.redacted).map Piece.redacted = (details b).map Piece.redacted := by
  have rows : (b.redacted.entries.flatMap entryRow).map Piece.redacted =
      (b.entries.flatMap entryRow).map Piece.redacted := by
    simp [Breakdown.redacted, List.map_flatMap, List.flatMap_map, entryRow_redacted]
  simp only [details, List.map_append, rows]
  rfl

/-- The table of the sessions and the answers of each. -/
theorem results_redacted (r : Report) :
    (results r.redacted).map Piece.redacted = (results r).map Piece.redacted := by
  simp only [results, Report.redacted, List.map_append, List.map_flatMap, List.flatMap_map,
    breakdownRow_redacted, failureRow_redacted, details_redacted]

/-- The report's JSON is one text. -/
theorem rawData_redacted (r : Report) :
    (rawData r.redacted).map Piece.redacted = (rawData r).map Piece.redacted := by
  simp only [rawData, List.map_cons, List.map_nil, Piece.redacted]

end Page

/-- **The page of a redacted report is the page of the report with the texts of its pieces
emptied.** -/
theorem Report.pieces_redacted (r : Report) :
    (Page.pieces r.redacted).map Piece.redacted = (Page.pieces r).map Piece.redacted := by
  have head : Page.head r.redacted = Page.head r := rfl
  have dashboard : (Page.dashboard r.redacted.statistics).map Piece.redacted =
      (Page.dashboard r.statistics).map Piece.redacted := Page.dashboard_redacted r.statistics
  simp only [Page.pieces, List.map_append, head, dashboard, Page.results_redacted,
    Page.rawData_redacted]

/-- **No text of a session is markup of the page.** Reports that are the same but for their texts
have pages in which the same characters of markup follow one another. -/
theorem Report.markupOf_html_eq (r₁ r₂ : Report) (same : r₁.redacted = r₂.redacted) :
    markupOf r₁.html = markupOf r₂.html := by
  have pieces : (Page.pieces r₁).map Piece.redacted = (Page.pieces r₂).map Piece.redacted := by
    rw [← pieces_redacted r₁, same, pieces_redacted r₂]
  rw [html, html, Piece.markupOf_renderAll, Piece.markupOf_renderAll, pieces]

/-- A report all of whose texts are a script that closes the tag it stands in, and the same report
with a harmless word in their place. -/
theorem Report.markupOf_html_eq_script :
    let report (text : String) : Report := {
      id := Uuid.nil
      createdAt := ⟨⟨2024, 2, 29, by decide, by decide, by decide⟩, 23, 59, 60, 0,
        by decide, by decide, by decide, by decide⟩
      settings := ⟨.record, .mean⟩
      breakdowns := [.fold 7 .kid .mean
        [⟨⟨1, 2⟩, text, text, .scored 0.5⟩, ⟨⟨3, -4⟩, text, text, .failed .divisionByZero text⟩]]
      failures := [⟨8, some ⟨1, 2⟩, text⟩]
      statistics := ⟨2, 0, 1, 1, none, ⟨[(1, ⟨text, 1, 0.5⟩)], List.pairwise_singleton ..⟩, ∅⟩
      durationMs := 12 }
    (report "</code><script>alert('\"')</script>").redacted = (report "word").redacted ∧
      markupOf (report "</code><script>alert('\"')</script>").html =
        markupOf (report "word").html := by
  intro report
  have same : (report "</code><script>alert('\"')</script>").redacted = (report "word").redacted :=
    rfl
  exact ⟨same, markupOf_html_eq _ _ same⟩

end Scoresheet
