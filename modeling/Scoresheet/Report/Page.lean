import Scoresheet.Report.Codec
import Scoresheet.Report.Html

/-!
# The report page

A report as one page that needs no other file: a summary, a chart of the questions' means, a table
of the sessions, the answers of each, and the report's JSON. Everything that comes from a session
stands in pieces of text.

* `Page.pieces` — the page of a report in pieces.
* `Report.html` — the page of a report.
-/

namespace Scoresheet

open Html (Piece)

namespace Page

/-- The style sheet, line by line. -/
def style : List String :=
  [":root \x7b --bg: #fff; --fg: #1a1a1a; --border: #e5e7eb; --pass: #dcfce7; --fail: "
      ++ "#fde2e2; \x7d",
   "@media (prefers-color-scheme: dark) \x7b",
   "  :root \x7b --bg: #111827; --fg: #f9fafb; --border: #374151; --pass: #064e3b; "
      ++ "--fail: #7f1d1d; \x7d",
   "\x7d",
   "body \x7b font-family: -apple-system, BlinkMacSystemFont, 'Segoe UI', sans-serif; "
      ++ "margin: 0; padding: 2rem; background: var(--bg); color: var(--fg); \x7d",
   "h1, h2 \x7b margin-top: 2rem; \x7d",
   ".meta \x7b color: #6b7280; \x7d",
   "table \x7b border-collapse: collapse; width: 100%; margin: 1rem 0; \x7d",
   "th, td \x7b border: 1px solid var(--border); padding: 0.5rem 1rem; text-align: left; \x7d",
   "th \x7b background: var(--border); cursor: pointer; \x7d",
   ".pass \x7b background: var(--pass); \x7d",
   ".fail \x7b background: var(--fail); \x7d",
   "pre \x7b overflow-x: auto; padding: 1rem; background: var(--border); "
      ++ "border-radius: 8px; \x7d",
   "code \x7b font-family: 'JetBrains Mono', 'Fira Code', monospace; font-size: 0.85rem; \x7d",
   "details \x7b margin: 1rem 0; \x7d",
   "summary \x7b cursor: pointer; font-weight: bold; \x7d",
   "svg \x7b margin: 1rem 0; \x7d"]

/-- The script that sorts the table of sessions by a column, line by line. -/
def script : List String :=
  ["function sortTable(col) \x7b",
   "  const table = document.getElementById('results');",
   "  const tbody = table.querySelector('tbody');",
   "  const rows = Array.from(tbody.querySelectorAll('tr'));",
   "  const asc = table.dataset.sortCol == col && table.dataset.sortDir == 'asc' ? false : true;",
   "  rows.sort((a, b) => \x7b",
   "    const va = a.cells[col].textContent;",
   "    const vb = b.cells[col].textContent;",
   "    const na = parseFloat(va), nb = parseFloat(vb);",
   "    if (!isNaN(na) && !isNaN(nb)) return asc ? na - nb : nb - na;",
   "    return asc ? va.localeCompare(vb) : vb.localeCompare(va);",
   "  \x7d);",
   "  table.dataset.sortCol = col;",
   "  table.dataset.sortDir = asc ? 'asc' : 'desc';",
   "  rows.forEach(r => tbody.appendChild(r));",
   "\x7d"]

/-- Lines between a tag and its end, each on its own. -/
def block (tag : String) (lines : List String) : List Piece :=
  [.markup ("<" ++ tag ++ ">\n\n" ++ String.join (lines.map (· ++ "\n")) ++ "</" ++ tag ++ ">\n")]

/-- A total to two places. -/
def total (x : Option Float) : String :=
  x.elim "n/a" (Decimal.fixed 2)

/-- A cell that holds markup. -/
def cell (content : String) : List Piece :=
  [.markup ("<td>" ++ content ++ "</td>")]

/-- A cell that holds text, with markup around the text. -/
def textCell (before : String) (content : String) (after : String) : List Piece :=
  [.markup ("<td>" ++ before), .text content, .markup (after ++ "</td>")]

/-- A row of a table. -/
def row (class? : Option String) (cells : List Piece) : List Piece :=
  let opening := class?.elim "<tr>" fun c => "<tr class=\"" ++ c ++ "\">"
  [.markup opening] ++ cells ++ [.markup "</tr>\n"]

/-- The point in time at which a report was made. -/
def moment (t : Timestamp) : String :=
  String.ofList (t.dateChars ++ ' ' :: t.timeChars) ++ " UTC"

/-! ### The head of the page -/

/-- Everything before the summary. -/
def head (report : Report) : List Piece :=
  [.markup ("<!DOCTYPE html>\n<html lang=\"en\">\n<head>\n<meta charset=\"utf-8\">\n"
      ++ "<meta name=\"viewport\" content=\"width=device-width, initial-scale=1\">\n"
      ++ "<title>scorecalc report " ++ report.id.text ++ "</title>\n")]
    ++ block "style" style
    ++ [.markup ("</head>\n<body>\n<header>\n<h1>scorecalc report</h1>\n<p class=\"meta\">"
      ++ toString report.statistics.sessions ++ " sessions | aggregation: <strong>"
      ++ report.settings.aggregation.name ++ "</strong> | failure policy: <strong>"
      ++ report.settings.failurePolicy.name ++ "</strong> | " ++ moment report.createdAt ++ " | "
      ++ toString report.durationMs ++ "ms</p>\n</header>\n")]

/-! ### The summary -/

/-- The counts of the batch and the summary of its totals. -/
def summaryTable (s : Statistics) : List Piece :=
  [.markup ("<table class=\"summary\">\n<thead><tr><th>Complete</th><th>Partial</th><th>Failed</th>"
      ++ "<th>Mean total</th><th>Min</th><th>Max</th></tr></thead>\n<tbody>\n")]
    ++ row none (cell (toString s.complete) ++ cell (toString s.incomplete)
      ++ cell (toString s.failed) ++ cell (total (s.totals.map TotalSummary.mean))
      ++ cell (total (s.totals.map TotalSummary.min))
      ++ cell (total (s.totals.map TotalSummary.max)))
    ++ [.markup "</tbody></table>\n"]

/-- The mean totals of the kinds of respondents. -/
def categoryTable (s : Statistics) : List Piece :=
  if s.perCategory.entries.isEmpty then []
  else
    [.markup ("<table class=\"categories\">\n<thead><tr><th>Respondent</th><th>Sessions</th>"
        ++ "<th>Mean total</th></tr></thead>\n<tbody>\n")]
      ++ s.perCategory.entries.flatMap (fun (respondent, c) =>
        row none (cell respondent.name ++ cell (toString c.sessions)
          ++ cell (Decimal.fixed 2 c.meanTotal)))
      ++ [.markup "</tbody></table>\n"]

/-- The height of a bar of the chart, and the room between two bars. -/
def barHeight : Nat := 30

@[inherit_doc barHeight]
def barGap : Nat := 10

/-- The width of the longest bar, and of the labels before the bars. -/
def chartWidth : Nat := 400

@[inherit_doc chartWidth]
def labelWidth : Nat := 200

/-- The width of a bar: its share of the longest one, rounded down. -/
def barWidth (peak mean : Float) : Nat :=
  -- Where all means are zero no bar is the longest.
  let ratio := if 0.0 < peak then mean.abs / peak else 0.0
  (ratio * Float.ofNat chartWidth).toUInt64.toNat

/-- The label, the bar and the mean of a question. -/
def bar (peak : Float) (position : Nat) (q : QuestionStatistics) : List Piece :=
  let y := position * (barHeight + barGap) + barGap
  let middle := toString (y + barHeight / 2)
  let width := barWidth peak q.mean
  let color := if q.mean < 0.0 then "#ef4444" else "#3b82f6"
  [.markup ("  <text x=\"" ++ toString (labelWidth - 10) ++ "\" y=\"" ++ middle
      ++ "\" font-size=\"14\" fill=\"currentColor\" text-anchor=\"end\""
      ++ " dominant-baseline=\"middle\">"),
   .text q.question,
   .markup ("</text>\n  <rect x=\"" ++ toString labelWidth ++ "\" y=\"" ++ toString y
      ++ "\" width=\"" ++ toString width ++ "\" height=\"" ++ toString barHeight ++ "\" fill=\""
      ++ color ++ "\" rx=\"4\"/>\n  <text x=\"" ++ toString (labelWidth + width + 8) ++ "\" y=\""
      ++ middle ++ "\" font-size=\"12\" fill=\"currentColor\" dominant-baseline=\"middle\">"
      ++ Decimal.fixed 2 q.mean ++ "</text>\n")]

/-- The chart of the questions' means. -/
def chart (s : Statistics) : List Piece :=
  let questions := s.perQuestion.entries.map Prod.snd
  if questions.isEmpty then []
  else
    let peak := questions.foldl (fun peak q => Formula.greater peak q.mean.abs) 0.0
    let height := questions.length * (barHeight + barGap) + barGap
    [.markup ("<h3>Mean score per question</h3>\n<svg width=\""
        ++ toString (labelWidth + chartWidth + 80) ++ "\" height=\"" ++ toString height
        ++ "\" xmlns=\"http://www.w3.org/2000/svg\">\n")]
      ++ questions.zipIdx.flatMap (fun (q, position) => bar peak position q)
      ++ [.markup "</svg>\n"]

/-- The summary of the batch. -/
def dashboard (s : Statistics) : List Piece :=
  [.markup "<section class=\"dashboard\">\n<h2>Summary</h2>\n"] ++ summaryTable s
    ++ categoryTable s ++ chart s ++ [.markup "</section>\n"]

/-! ### The sessions -/

/-- The row of a session with a breakdown. -/
def breakdownRow (b : Breakdown) : List Piece :=
  row (some (if b.isComplete then "pass" else "fail")) (cell (idText b.sessionId)
    ++ cell b.respondent.name ++ cell (total b.total) ++ cell (toString b.entries.length)
    ++ cell (toString b.failed))

/-- The row of a session without one. -/
def failureRow (f : SessionFailure) : List Piece :=
  row (some "fail") (cell (idText f.sessionId) ++ cell "-" ++ cell "aborted" ++ cell "-"
    ++ textCell "" f.message "")

/-- The row of an answer. -/
def entryRow (e : Entry) : List Piece :=
  let (className, value) := match e.outcome with
    | .scored value => ("pass", cell (Decimal.plain value))
    | .failed kind message => ("fail", textCell (kind.name ++ ": ") message "")
  row (some className) (cell e.key.text ++ textCell "" e.question ""
    ++ textCell "<code>" e.formula "</code>" ++ value)

/-- The answers of a session. -/
def details (b : Breakdown) : List Piece :=
  [.markup ("<details class=\"session\">\n<summary>Session " ++ idText b.sessionId ++ " ("
      ++ total b.total ++ ")</summary>\n<table>\n<thead><tr><th>Answer</th><th>Question</th>"
      ++ "<th>Formula</th><th>Value</th></tr></thead>\n<tbody>\n")]
    ++ b.entries.flatMap entryRow ++ [.markup "</tbody></table>\n</details>\n"]

/-- The heading of a column that sorts the table. -/
def sortHeading (column : Nat) (title : String) : String :=
  "<th onclick=\"sortTable(" ++ toString column ++ ")\">" ++ title ++ "</th>"

/-- The table of the sessions and the answers of each. -/
def results (report : Report) : List Piece :=
  [.markup ("<section class=\"results\">\n<h2>Sessions</h2>\n"
      ++ "<table class=\"results-table\" id=\"results\">\n<thead><tr>" ++ sortHeading 0 "Session"
      ++ sortHeading 1 "Respondent" ++ sortHeading 2 "Total" ++ sortHeading 3 "Answers"
      ++ sortHeading 4 "Failed" ++ "</tr></thead>\n<tbody>\n")]
    ++ report.breakdowns.flatMap breakdownRow ++ report.failures.flatMap failureRow
    ++ [.markup "</tbody></table>\n"] ++ report.breakdowns.flatMap details
    ++ [.markup "</section>\n"]

/-- The report's JSON. -/
def rawData (report : Report) : List Piece :=
  [.markup ("<section class=\"raw-data\">\n<details>\n<summary>Raw JSON Data</summary>\n"
      ++ "<pre><code>"),
   .text report.toJson.pretty,
   .markup "</code></pre>\n</details>\n</section>\n"]

/-- **The page of a report in pieces.** -/
def pieces (report : Report) : List Piece :=
  head report ++ dashboard report.statistics ++ results report ++ rawData report
    ++ block "script" script ++ [.markup "</body>\n</html>"]

end Page

/-- **The page of a report.** -/
def Report.html (report : Report) : String :=
  Piece.renderAll (Page.pieces report)

end Scoresheet
