import Scoresheet.Report

/-!
# Comparing reports

A report is compared with an earlier one session by session. A session is changed when its total
moved by more than a threshold, or when it gained or lost its total.

* `Report.totals` — the totals of a report by session.
* `Report.compare` — what is changed, new and gone since a baseline.
* `Comparison.markdown` — the comparison as text for people.
-/

namespace Scoresheet

/-- A session whose total changed. -/
structure TotalChange where
  sessionId : Int64
  baseline : Option Float
  current : Option Float
  /-- How far the total moved, if it was there before and after. -/
  delta : Option Float
deriving BEq

/-- What changed between two reports. -/
structure Comparison where
  changes : List TotalChange
  unchanged : Nat
  /-- Sessions that only the current report has. -/
  newSessions : List Int64
  /-- Sessions that only the baseline has. -/
  removedSessions : List Int64
deriving BEq

/-- **The totals of a report by session.** Of breakdowns with one session the last counts; a failure
counts where there is no breakdown. -/
def Report.totals (report : Report) : Index Int64 (Option Float) :=
  report.failures.foldl (fun index failure => index.insertNew failure.sessionId none)
    (.ofList (report.breakdowns.map fun b => (b.sessionId, b.total)))

/-- Whether two totals of a session count as different. -/
def differs (threshold : Float) : Option Float → Option Float → Bool
  | some before, some after => threshold < (after - before).abs
  | none, none => false
  | _, _ => true

/-- How far a total moved. -/
def delta? : Option Float → Option Float → Option Float
  | some before, some after => some (after - before)
  | _, _ => none

/-- **What changed since a baseline.** -/
def Report.compare (current baseline : Report) (threshold : Float) : Comparison :=
  let before := baseline.totals
  let after := current.totals
  -- Sessions come in ascending order, as the entries of an index do.
  let shared := after.entries.filterMap fun (id, total) =>
    (before.find? id).map fun old => (id, old, total)
  let (changed, unchanged) := shared.partition fun (_, old, total) => differs threshold old total
  { changes := changed.map fun (id, old, total) => ⟨id, old, total, delta? old total⟩
    unchanged := unchanged.length
    newSessions := after.keys.filter fun id => (before.find? id).isNone
    removedSessions := before.keys.filter fun id => (after.find? id).isNone }

namespace Comparison

/-- Whether any total changed. -/
def hasChanges (c : Comparison) : Bool :=
  !c.changes.isEmpty

/-- A total to two places. -/
def totalText (total : Option Float) : String :=
  total.elim "n/a" (Decimal.fixed 2)

/-- A list of sessions. -/
def idsText (ids : List Int64) : String :=
  ", ".intercalate (ids.map idText)

/-- The line of a changed session in the table of changes. -/
def changeLine (c : TotalChange) : String :=
  "| " ++ idText c.sessionId ++ " | " ++ totalText c.baseline ++ " | " ++ totalText c.current
    ++ " | " ++ c.delta.elim "-" (Decimal.signed (Decimal.fixed 2)) ++ " |\n"

/-- **The comparison as text for people:** a summary, a table of the changes, and the sessions that
are new or gone. -/
def markdown (c : Comparison) : String :=
  let summary := "**Summary:** " ++ toString c.changes.length ++ " changed, "
    ++ toString c.unchanged ++ " unchanged, " ++ toString c.newSessions.length ++ " new, "
    ++ toString c.removedSessions.length ++ " removed\n\n"
  let changes :=
    if c.changes.isEmpty then ""
    else "### Changed totals\n\n| Session | Baseline | Current | Delta |\n"
      ++ "|---------|----------|---------|-------|\n"
      ++ String.join (c.changes.map changeLine) ++ "\n"
  let new :=
    if c.newSessions.isEmpty then "" else "New sessions: " ++ idsText c.newSessions ++ "\n"
  let removed :=
    if c.removedSessions.isEmpty then ""
    else "Removed sessions: " ++ idsText c.removedSessions ++ "\n"
  summary ++ changes ++ new ++ removed

end Comparison

end Scoresheet
