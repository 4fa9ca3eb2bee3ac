import Scoresheet.Report.Comparison
import Scoresheet.Session.Codec

/-!
# Reports as JSON

How breakdowns, statistics, reports and comparisons are stored: the names and the order of their
fields, and which of them may be left out.

* `Breakdown.toJson`, `Breakdown.decoder` — a breakdown.
* `Statistics.toJson`, `Statistics.decoder` — the statistics of a batch.
* `Report.toJson`, `Report.decoder` — a report.
* `Comparison.toJson`, `Comparison.decoder` — a comparison.
-/

namespace Scoresheet

open Json (Value Decoder Record Fault Node Key Origin applyFirst)

/-- A count as an integer. -/
def countValue (n : Nat) : Value := .int n

/-- A float that may be missing. -/
def floatOption (x : Option Float) : Value := .ofOption .float x

namespace AnswerKey

/-- A key as JSON. -/
def toJson (k : AnswerKey) : Value :=
  .object [("question_id", idValue k.questionId),
    ("possible_answer_id", idValue k.possibleAnswerId)]

/-- The decoder of a key. -/
def decoder : Decoder AnswerKey := fun origin node => do
  let r ← Record.ofNode ["question_id", "possible_answer_id"] origin node
  let fields := (r.field "question_id" Decoder.identifier).map mk
  r.build (applyFirst fields (r.field "possible_answer_id" Decoder.identifier))

end AnswerKey

/-! ### Outcomes -/

namespace Outcome

/-- An outcome as JSON: its status says which fields follow. -/
def toJson : Outcome → Value
  | scored value => .object [("status", .string "scored"), ("value", .float value)]
  | failed kind message =>
    .object [("status", .string "failed"), ("kind", .string kind.name),
      ("message", .string message)]

/-- The status of an outcome. -/
inductive Status where
  | scored
  | failed

/-- The status that a word denotes. -/
def Status.ofName? : String → Option Status
  | "scored" => some scored
  | "failed" => some failed
  | _ => none

/-- The fields of an outcome whose status is known. They were read whole before it was. -/
def ofFields (status : Status) (node : Node) : Except Fault Outcome :=
  match status with
  | .scored => do
    let r ← Record.ofNode ["value"] .buffered node
    r.build ((r.field "value" Decoder.float).map scored)
  | .failed => do
    let r ← Record.ofNode ["kind", "message"] .buffered node
    let fields := (r.field "kind" (Decoder.word Formula.ErrorKind.ofName?)).map failed
    r.build (applyFirst fields (r.field "message" Decoder.string))

/-- The status among the members of an outcome, and the other members. The other members are read
whole, since it is not known what they are before the status is. -/
def splitStatus (status : Option Status) (others : List (Key × Node)) :
    List (Key × Node) → Except Fault (Option Status × List (Key × Node))
  | [] => .ok (status, others.reverse)
  | (key, node) :: rest => do
    let text ← key.text
    if text = "status" then
      if status.isSome then throw ⟨.shape, key.position⟩
      -- A fault of the status counts before one of the members behind it.
      let status ← Decoder.ofText Status.ofName? .text node
      splitStatus (some status) others rest
    else
      let _ ← node.toValue
      splitStatus status ((key, node) :: others) rest

/-- **The decoder of an outcome.** In an array the status comes first. -/
def decoder : Decoder Outcome
  | _, .object position depth members close => do
    let (status, others) ← splitStatus none [] members
    close.check
    match status with
    | some status => ofFields status (.object position depth others close)
    | none => throw ⟨.shape, close.position⟩
  | _, .array position depth items close =>
    match items with
    | [] => do
      close.check
      throw ⟨.shape, close.position⟩
    | first :: rest => do
      let status ← Decoder.ofText Status.ofName? .text first
      let _ ← Json.itemValues rest
      close.check
      ofFields status (.array position depth rest close)
  | _, node => node.refuse

end Outcome

/-! ### Breakdowns -/

namespace Entry

/-- An entry as JSON. -/
def toJson (e : Entry) : Value :=
  .object [("key", e.key.toJson), ("question", .string e.question), ("formula", .string e.formula),
    ("outcome", e.outcome.toJson)]

/-- The decoder of an entry. -/
def decoder : Decoder Entry := fun origin node => do
  let r ← Record.ofNode ["key", "question", "formula", "outcome"] origin node
  let fields := (r.field "key" AnswerKey.decoder).map mk
  let fields := applyFirst fields (r.field "question" Decoder.string)
  let fields := applyFirst fields (r.field "formula" Decoder.string)
  r.build (applyFirst fields (r.field "outcome" Outcome.decoder))

end Entry

/-- The decoder of an aggregation. -/
def Aggregation.decoder : Decoder Aggregation := .word ofName?

/-- The decoder of a failure policy. -/
def FailurePolicy.decoder : Decoder FailurePolicy := .word ofName?

/-- The decoder of a kind of respondent. -/
def Respondent.decoder : Decoder Respondent := .word ofName?

namespace Breakdown

/-- A breakdown as JSON. -/
def toJson (b : Breakdown) : Value :=
  .object [("session_id", idValue b.sessionId), ("respondent", .string b.respondent.name),
    ("aggregation", .string b.aggregation.name), ("entries", .array (b.entries.map Entry.toJson)),
    ("total", floatOption b.total), ("partial_total", floatOption b.partialTotal),
    ("failed", countValue b.failed), ("overflowed", .bool b.overflowed)]

/-- The decoder of a breakdown. The two totals may be missing, and so may the word on overflow. -/
def decoder : Decoder Breakdown := fun origin node => do
  let r ← Record.ofNode ["session_id", "respondent", "aggregation", "entries", "total",
    "partial_total", "failed", "overflowed"] origin node
  let fields := (r.field "session_id" Decoder.identifier).map mk
  let fields := applyFirst fields (r.field "respondent" Respondent.decoder)
  let fields := applyFirst fields (r.field "aggregation" Aggregation.decoder)
  let fields := applyFirst fields (r.field "entries" (Decoder.list Entry.decoder))
  let fields := applyFirst fields (r.fieldOptional "total" Decoder.float)
  let fields := applyFirst fields (r.fieldOptional "partial_total" Decoder.float)
  let fields := applyFirst fields (r.field "failed" Decoder.count)
  r.build (applyFirst fields (r.fieldOr "overflowed" false Decoder.bool))

/-- A list of breakdowns as JSON. -/
def listToJson (breakdowns : List Breakdown) : Value :=
  .array (breakdowns.map toJson)

end Breakdown

/-! ### Statistics -/

namespace TotalSummary

/-- A summary of totals as JSON. -/
def toJson (t : TotalSummary) : Value :=
  .object [("mean", .float t.mean), ("min", .float t.min), ("max", .float t.max)]

/-- The decoder of a summary of totals. -/
def decoder : Decoder TotalSummary := fun origin node => do
  let r ← Record.ofNode ["mean", "min", "max"] origin node
  let fields := (r.field "mean" Decoder.float).map mk
  let fields := applyFirst fields (r.field "min" Decoder.float)
  r.build (applyFirst fields (r.field "max" Decoder.float))

end TotalSummary

namespace QuestionStatistics

/-- The statistics of a question as JSON. -/
def toJson (q : QuestionStatistics) : Value :=
  .object [("question", .string q.question), ("answers", countValue q.answers),
    ("mean", .float q.mean)]

/-- The decoder of the statistics of a question. -/
def decoder : Decoder QuestionStatistics := fun origin node => do
  let r ← Record.ofNode ["question", "answers", "mean"] origin node
  let fields := (r.field "question" Decoder.string).map mk
  let fields := applyFirst fields (r.field "answers" Decoder.count)
  r.build (applyFirst fields (r.field "mean" Decoder.float))

end QuestionStatistics

namespace CategoryStatistics

/-- The statistics of a kind of respondent as JSON. -/
def toJson (c : CategoryStatistics) : Value :=
  .object [("sessions", countValue c.sessions), ("mean_total", .float c.meanTotal)]

/-- The decoder of the statistics of a kind of respondent. -/
def decoder : Decoder CategoryStatistics := fun origin node => do
  let r ← Record.ofNode ["sessions", "mean_total"] origin node
  let fields := (r.field "sessions" Decoder.count).map mk
  r.build (applyFirst fields (r.field "mean_total" Decoder.float))

end CategoryStatistics

namespace Statistics

/-- The statistics of a batch as JSON. Identifiers are the keys of the questions. -/
def toJson (s : Statistics) : Value :=
  .object [("sessions", countValue s.sessions), ("complete", countValue s.complete),
    ("partial", countValue s.incomplete), ("failed", countValue s.failed),
    ("totals", .ofOption TotalSummary.toJson s.totals),
    ("per_question", .object (s.perQuestion.entries.map fun (id, q) => (idText id, q.toJson))),
    ("per_category",
      .object (s.perCategory.entries.map fun (respondent, c) => (respondent.name, c.toJson)))]

/-- The identifier that a key spells. -/
def idOfKey (key : Key) : Except Fault Int64 :=
  key.integer.map Int64.ofInt

/-- The kind of respondent that a key names. -/
def respondentOfKey (key : Key) : Except Fault Respondent := do
  match Respondent.ofName? (← key.text) with
  | some r => return r
  | none => throw ⟨.shape, key.position⟩

/-- The decoder of the statistics of a batch. Of entries with one key the last counts. -/
def decoder : Decoder Statistics := fun origin node => do
  let r ← Record.ofNode ["sessions", "complete", "partial", "failed", "totals", "per_question",
    "per_category"] origin node
  let fields := (r.field "sessions" Decoder.count).map mk
  let fields := applyFirst fields (r.field "complete" Decoder.count)
  let fields := applyFirst fields (r.field "partial" Decoder.count)
  let fields := applyFirst fields (r.field "failed" Decoder.count)
  let fields := applyFirst fields (r.fieldOptional "totals" TotalSummary.decoder)
  let fields := applyFirst fields
    ((r.field "per_question" (Decoder.table idOfKey QuestionStatistics.decoder)).map Index.ofList)
  r.build (applyFirst fields
    ((r.field "per_category" (Decoder.table respondentOfKey CategoryStatistics.decoder)).map
      Index.ofList))

end Statistics

/-! ### Reports -/

namespace SessionFailure

/-- The failure of a session as JSON. -/
def toJson (f : SessionFailure) : Value :=
  .object [("session_id", idValue f.sessionId), ("answer", .ofOption AnswerKey.toJson f.answer),
    ("message", .string f.message)]

/-- The decoder of the failure of a session. -/
def decoder : Decoder SessionFailure := fun origin node => do
  let r ← Record.ofNode ["session_id", "answer", "message"] origin node
  let fields := (r.field "session_id" Decoder.identifier).map mk
  let fields := applyFirst fields (r.fieldOptional "answer" AnswerKey.decoder)
  r.build (applyFirst fields (r.field "message" Decoder.string))

end SessionFailure

namespace ScoringSettings

/-- Settings as JSON. -/
def toJson (s : ScoringSettings) : Value :=
  .object [("failure_policy", .string s.failurePolicy.name),
    ("aggregation", .string s.aggregation.name)]

/-- The decoder of settings, each of which may be left out. -/
def decoder : Decoder ScoringSettings := fun origin node => do
  let r ← Record.ofNode ["failure_policy", "aggregation"] origin node
  let fields := (r.fieldOr "failure_policy" .abort FailurePolicy.decoder).map mk
  r.build (applyFirst fields (r.fieldOr "aggregation" .sum Aggregation.decoder))

end ScoringSettings

namespace Report

/-- A report as JSON. -/
def toJson (r : Report) : Value :=
  .object [("id", .string r.id.text), ("created_at", .string r.createdAt.text),
    ("calculator", r.settings.toJson), ("breakdowns", Breakdown.listToJson r.breakdowns),
    ("failures", .array (r.failures.map SessionFailure.toJson)), ("stats", r.statistics.toJson),
    ("duration_ms", countValue r.durationMs)]

/-- The decoder of a report. -/
def decoder : Decoder Report := fun origin node => do
  let r ← Record.ofNode ["id", "created_at", "calculator", "breakdowns", "failures", "stats",
    "duration_ms"] origin node
  let fields := (r.field "id" (Decoder.ofText Uuid.parse?)).map mk
  let fields := applyFirst fields (r.field "created_at" Timestamp.decoder)
  let fields := applyFirst fields (r.field "calculator" ScoringSettings.decoder)
  let fields := applyFirst fields (r.field "breakdowns" (Decoder.list Breakdown.decoder))
  let fields := applyFirst fields (r.field "failures" (Decoder.list SessionFailure.decoder))
  let fields := applyFirst fields (r.field "stats" Statistics.decoder)
  r.build (applyFirst fields (r.field "duration_ms" Decoder.count))

end Report

/-! ### Comparisons -/

namespace TotalChange

/-- A changed total as JSON. -/
def toJson (c : TotalChange) : Value :=
  .object [("session_id", idValue c.sessionId), ("baseline", floatOption c.baseline),
    ("current", floatOption c.current), ("delta", floatOption c.delta)]

/-- The decoder of a changed total. -/
def decoder : Decoder TotalChange := fun origin node => do
  let r ← Record.ofNode ["session_id", "baseline", "current", "delta"] origin node
  let fields := (r.field "session_id" Decoder.identifier).map mk
  let fields := applyFirst fields (r.fieldOptional "baseline" Decoder.float)
  let fields := applyFirst fields (r.fieldOptional "current" Decoder.float)
  r.build (applyFirst fields (r.fieldOptional "delta" Decoder.float))

end TotalChange

namespace Comparison

/-- A comparison as JSON. -/
def toJson (c : Comparison) : Value :=
  .object [("changes", .array (c.changes.map TotalChange.toJson)),
    ("unchanged", countValue c.unchanged), ("new_sessions", .array (c.newSessions.map idValue)),
    ("removed_sessions", .array (c.removedSessions.map idValue))]

/-- The decoder of a comparison. -/
def decoder : Decoder Comparison := fun origin node => do
  let r ← Record.ofNode ["changes", "unchanged", "new_sessions", "removed_sessions"] origin node
  let fields := (r.field "changes" (Decoder.list TotalChange.decoder)).map mk
  let fields := applyFirst fields (r.field "unchanged" Decoder.count)
  let fields := applyFirst fields (r.field "new_sessions" (Decoder.list Decoder.identifier))
  r.build (applyFirst fields (r.field "removed_sessions" (Decoder.list Decoder.identifier)))

end Comparison

end Scoresheet
