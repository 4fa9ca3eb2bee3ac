import Scoresheet.Json.Decoder
import Scoresheet.Session

/-!
# Sessions as JSON

How sessions are stored: the names of the fields, which of them may be left out, and the two shapes
of a session file, a list of sessions in an object or a single session.

* `Session.toJson`, `Session.decoder` — a session.
* `Session.fileDecoder` — a session file.
* `Session.readJson` — the sessions of a JSON text.
-/

namespace Scoresheet

open Json (Value Decoder Record Fault applyFirst)

/-- An identifier as an integer. -/
def idValue (id : Int64) : Value := .int id.toInt

/-- The decoder of a timestamp. -/
def Timestamp.decoder : Decoder Timestamp := .ofText Timestamp.parse?

namespace Question

/-- A question as JSON. -/
def toJson (q : Question) : Value :=
  .object [("id", idValue q.id), ("name", .string q.name)]

/-- The decoder of a question. -/
def decoder : Decoder Question := fun origin node => do
  let r ← Record.ofNode ["id", "name"] origin node
  r.build (applyFirst ((r.field "id" Decoder.identifier).map mk) (r.field "name" Decoder.string))

end Question

namespace PossibleAnswer

/-- A possible answer as JSON. -/
def toJson (p : PossibleAnswer) : Value :=
  .object [("id", idValue p.id), ("name", .string p.name), ("formula", .string p.formula),
    ("question", p.question.toJson)]

/-- The decoder of a possible answer; one without a name has the empty name. -/
def decoder : Decoder PossibleAnswer := fun origin node => do
  let r ← Record.ofNode ["id", "name", "formula", "question"] origin node
  let fields := (r.field "id" Decoder.identifier).map mk
  let fields := applyFirst fields (r.fieldOr "name" "" Decoder.string)
  let fields := applyFirst fields (r.field "formula" Decoder.string)
  r.build (applyFirst fields (r.field "question" Question.decoder))

end PossibleAnswer

namespace Variable

/-- A variable as JSON. -/
def toJson (v : Variable) : Value :=
  .object [("id", .ofOption idValue v.id), ("name", .string v.name)]

/-- The decoder of a variable, which may have no identifier. -/
def decoder : Decoder Variable := fun origin node => do
  let r ← Record.ofNode ["id", "name"] origin node
  let fields := (r.fieldOr "id" none (Decoder.optional Decoder.identifier)).map mk
  r.build (applyFirst fields (r.field "name" Decoder.string))

end Variable

namespace VariableValue

/-- The value of a variable as JSON. -/
def toJson (v : VariableValue) : Value :=
  .object [("variable", v.input.toJson), ("value", .float v.value)]

/-- The decoder of the value of a variable. -/
def decoder : Decoder VariableValue := fun origin node => do
  let r ← Record.ofNode ["variable", "value"] origin node
  let fields := (r.field "variable" Variable.decoder).map mk
  r.build (applyFirst fields (r.field "value" Decoder.float))

end VariableValue

namespace Answer

/-- An answer as JSON. -/
def toJson (a : Answer) : Value :=
  .object [("possibleAnswer", a.possibleAnswer.toJson),
    ("variableValues", .array (a.variableValues.map VariableValue.toJson))]

/-- The decoder of an answer, which may give no values. -/
def decoder : Decoder Answer := fun origin node => do
  let r ← Record.ofNode ["possibleAnswer", "variableValues"] origin node
  let fields := (r.field "possibleAnswer" PossibleAnswer.decoder).map mk
  r.build (applyFirst fields (r.fieldOr "variableValues" [] (Decoder.list VariableValue.decoder)))

end Answer

namespace Session

/-- A session as JSON. -/
def toJson (s : Session) : Value :=
  .object [("id", idValue s.id), ("dateTime", .string s.dateTime.text),
    ("answers", .array (s.answers.map Answer.toJson)), ("iskid", .bool s.isKid),
    ("seminar_access_code", .ofOption .string s.seminarAccessCode)]

/-- The decoder of a session. Answers, the kind of respondent and the access code may be left
out. -/
def decoder : Decoder Session := fun origin node => do
  let r ← Record.ofNode ["id", "dateTime", "answers", "iskid", "seminar_access_code"] origin node
  let fields := (r.field "id" Decoder.identifier).map mk
  let fields := applyFirst fields (r.field "dateTime" Timestamp.decoder)
  let fields := applyFirst fields (r.fieldOr "answers" [] (Decoder.list Answer.decoder))
  let fields := applyFirst fields (r.fieldOr "iskid" false Decoder.bool)
  r.build (applyFirst fields
    (r.fieldOr "seminar_access_code" none (Decoder.optional Decoder.string)))

/-- The sessions of an object that holds a list of them. An array is no such object. -/
def manyDecoder : Decoder (List Session)
  | origin, .object position depth members close => do
    let r ← Record.ofNode ["sessions"] origin (.object position depth members close)
    r.build (r.field "sessions" (Decoder.list decoder))
  | _, node => node.refuse

/-- **The decoder of a session file:** an object with a list of sessions, else a single session. The
file is read whole first, so that a fault in its grammar counts before one in its shape. -/
def fileDecoder : Decoder (List Session) := fun _ node => do
  let _ ← node.toValue
  -- Which of the two shapes a fault is in is not told.
  match manyDecoder .buffered node with
  | .ok sessions => return sessions
  | .error _ =>
    match decoder .buffered node with
    | .ok session => return [session]
    | .error _ => throw ⟨.shape, node.position⟩

/-- The sessions of a JSON text. -/
def readJson (text : String) : Except Fault (List Session) :=
  Json.decode fileDecoder text

/-- A list of sessions as JSON. -/
def listToJson (sessions : List Session) : Value :=
  .array (sessions.map toJson)

end Session

end Scoresheet
