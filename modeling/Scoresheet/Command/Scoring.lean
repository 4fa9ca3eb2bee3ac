import Scoresheet.Command.Inspection
import Scoresheet.Report.Page
import Scoresheet.Scoring.Batch
import Scoresheet.Text.Table

/-!
# The scoring command

Everything that may be wrong with what is asked for is looked at before a session is scored, and
nothing is written until then: settings, key, formats, sessions make a job. A job is scored and its
report written in every format that is asked for.

* `Job`, `Job.prepare` — what is to be done.
* `Job.artifacts` — the files of a report.
* `Command.scoring` — the whole command.
-/

namespace Scoresheet

/-- A format of reports. -/
inductive ReportFormat where
  | json
  | html
deriving DecidableEq

namespace ReportFormat

/-- The format that a word denotes. -/
def ofName? : String → Option ReportFormat
  | "json" => some json
  | "html" => some html
  | _ => none

/-- The format that a word denotes; any other word is said to be unknown. -/
def ofName (name : String) : Except Failure ReportFormat :=
  match ofName? name with
  | some format => .ok format
  | none => .error (.unknownFormat name)

/-- **The formats of a list,** with commas and perhaps blanks between them, or all. -/
def ofRequest (request : String) : Except Failure (List ReportFormat) :=
  if request = "all" then .ok [json, html]
  else (Text.fields ',' request.toList).mapM fun field => ofName (String.ofList (Text.trim field))

end ReportFormat

/-- A scoring run in which nothing is wrong. -/
structure Job where
  scoring : ScoringSettings
  sessions : List Session
  output : Path
  formats : List ReportFormat
  /-- The key, if the report is to be signed. -/
  key : Option Signing.Key

namespace Job

/-- Settings with what is asked for in their place. -/
def override (o : ScoreOptions) (s : Settings) : Except Failure Settings :=
  if o.parallelism = some 0 then .error .noParallelism
  else .ok { s with
    scoring :=
      { failurePolicy := o.failurePolicy.getD s.scoring.failurePolicy
        aggregation := o.aggregation.getD s.scoring.aggregation }
    parallelism := o.parallelism.getD s.parallelism
    outputDirectory := o.output.getD s.outputDirectory }

/-- The key, if the report is to be signed. -/
def key? (o : ScoreOptions) (s : Settings) : Except Failure (Option Signing.Key) :=
  if o.sign then (Command.signingKey s).map some else .ok none

variable {m : Type → Type} [Monad m] [Host m]

/-- **What is to be done,** if nothing is wrong with what is asked for. -/
def prepare (o : ScoreOptions) : ExceptT Failure m Job := do
  let loaded ← ExceptT.adapt Failure.settings (Settings.load o.settings)
  let settings ← MonadExcept.ofExcept (override o loaded)
  -- Key and formats are looked at before any session is read.
  let key ← MonadExcept.ofExcept (key? o settings)
  let formats ← MonadExcept.ofExcept (ReportFormat.ofRequest o.format)
  let sessions ← ExceptT.adapt Failure.sessions (Session.load o.sessions)
  if sessions.isEmpty then throw (.noSessions o.sessions)
  return { scoring := settings.scoring, sessions, output := settings.outputDirectory, formats, key }

/-! ### What is told of a run -/

/-- The program with its version. -/
def program : String := "scorecalc v0.1.0"

/-- What is told before sessions are scored. -/
def opening (job : Job) : List String :=
  [program ++ ": scoring " ++ toString job.sessions.length ++ " sessions (policy: "
      ++ job.scoring.failurePolicy.name ++ ", aggregation: " ++ job.scoring.aggregation.name
      ++ ")",
    ""]

/-- The total of a breakdown, or why there is none. -/
def totalText (b : Breakdown) : String :=
  match b.total with
  | some total => Decimal.plain total
  | none => if b.overflowed then "n/a (overflow)" else "n/a (" ++ toString b.failed ++ " failed)"

/-- What is told of a session when it is finished. -/
def progressLine : Batch.Progress → String
  | .complete b => "  Done: session " ++ idText b.sessionId ++ " total " ++ totalText b
  | .failed id message => "  ERROR: session " ++ idText id ++ ": " ++ message

/-- A duration in seconds. -/
def secondsText (milliseconds : Nat) : String :=
  Decimal.fixed 1 (Float.ofScientific milliseconds true 3) ++ "s"

/-- What is told when all sessions are finished. -/
def closing (outcome : Batch.Outcome) (milliseconds : Nat) : List String :=
  ["", "Complete: " ++ toString outcome.breakdowns.length ++ "/" ++ toString outcome.total
    ++ " scored, " ++ toString outcome.failures.length ++ " failed (" ++ secondsText milliseconds
    ++ ")"]

/-- The row of a session with a breakdown in the table of results. -/
def breakdownRow (b : Breakdown) : List String :=
  let total := match b.total, b.partialTotal with
    | some total, _ => Decimal.plain total
    | none, some part => "n/a (partial " ++ Decimal.plain part ++ ")"
    | none, none => "n/a (overflow)"
  [idText b.sessionId, b.respondent.name, total, toString b.entries.length, toString b.failed]

/-- The row of a session without a breakdown in the table of results. -/
def failureRow (f : SessionFailure) : List String :=
  let message := f.answer.elim f.message fun key => key.text ++ ": " ++ f.message
  [idText f.sessionId, "-", "aborted", "-", message]

/-- **What is printed of a report:** the table of results and the totals. -/
def summaryLines (r : Report) : List String :=
  Text.tableLines ["Session", "Respondent", "Total", "Answers", "Failed"]
      (r.breakdowns.map breakdownRow ++ r.failures.map failureRow)
    ++ match r.statistics.totals with
      | some t => ["Totals: mean " ++ Decimal.fixed 2 t.mean ++ ", min " ++ Decimal.plain t.min
          ++ ", max " ++ Decimal.plain t.max]
      | none => []

/-! ### The files of a report -/

/-- A file to be written. -/
structure Artifact where
  path : Path
  content : String
  /-- What is told when it is written. -/
  label : String
  /-- What it is called when it cannot be written. -/
  description : String

/-- The time in names of files, to the second. -/
def stamp (t : Timestamp) : String :=
  let two := Timestamp.padded 2
  String.ofList (t.dateChars ++ 'T' :: two t.hour ++ two t.minute ++ two t.second)

/-- The file of a report with an ending, in the output directory. -/
def reportPath (job : Job) (now : Timestamp) (ending : String) : Path :=
  job.output.join ⟨"report-" ++ stamp now ++ ending⟩

/-- The file of a report in a format. -/
def artifact (job : Job) (report : Report) (now : Timestamp) : ReportFormat → Artifact
  | .json => ⟨job.reportPath now ".json", report.toJson.pretty, "Results saved to: ", "report"⟩
  | .html => ⟨job.reportPath now ".html", report.html, "HTML report: ", "HTML report"⟩

/-- The file of a report that is signed. -/
def signedArtifact (job : Job) (report : Report) (now : Timestamp) (key : Signing.Key) : Artifact :=
  ⟨job.reportPath now ".signed.json", (Signing.sign key report.toJson).toJson.pretty,
    "Signed report: ", "signed report"⟩

/-- **The files of a report,** one for each format and one if it is signed. -/
def artifacts (job : Job) (report : Report) (now : Timestamp) : List Artifact :=
  job.formats.map (job.artifact report now) ++ (job.key.map (job.signedArtifact report now)).toList

/-- Files written one after the other, until one cannot be. What is told of the written ones comes
with the failure, if there is one. -/
def writeAll : List Artifact → m (List String × Option Failure)
  | [] => return ([], none)
  | a :: rest => do
    match ← Host.write a.path a.content.toUTF8 with
    | .error fault => return ([], some (.notWritten a.description a.path fault))
    | .ok () =>
      let (told, failure?) ← writeAll rest
      return ((a.label ++ a.path.text) :: told, failure?)

/-- **A job done:** its sessions scored, the results printed, the files written. -/
def perform (job : Job) : m Transcript := do
  let before ← Host.milliseconds
  let outcome := Batch.run job.scoring job.sessions
  let id ← Host.freshId
  let createdAt ← Host.now
  let after ← Host.milliseconds
  let report := outcome.report job.scoring id createdAt (after - before)
  let t : Transcript :=
    { output := summaryLines report
      messages := job.opening ++ outcome.progress.map progressLine
        ++ closing outcome (after - before) }
  match ← Host.makeDirectories job.output with
  | .error fault => return t.fail (.directoryNotMade job.output fault)
  | .ok () =>
    -- The files are named for the time at which they are written.
    let now ← Host.now
    let (told, failure?) ← writeAll (job.artifacts report now)
    let t := { t with messages := t.messages ++ told }
    return failure?.elim t t.fail

end Job

/-- **Sessions scored and reports written.** -/
def Command.scoring {m : Type → Type} [Monad m] [Host m] (o : ScoreOptions) :
    ExceptT Failure m Transcript := do
  let job ← Job.prepare o
  job.perform

end Scoresheet
