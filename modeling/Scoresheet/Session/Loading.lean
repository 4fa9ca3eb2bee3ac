import Scoresheet.Session.Codec
import Scoresheet.Toml.Document

/-!
# Reading session texts

A session text is written in one of two formats. In either it holds a list of sessions or a single
session.

* `SessionFormat` — the formats.
* `ReadFault` — why a text is not read.
* `Session.parse` — the sessions of a text.
-/

namespace Scoresheet

/-- The formats in which sessions are stored. -/
inductive SessionFormat where
  | json
  | toml
deriving DecidableEq, Repr

/-- Why a stored text is not read. -/
inductive ReadFault where
  | json (fault : Json.Fault)
  | toml
deriving DecidableEq, Repr

/-- The wording of a fault. -/
def ReadFault.message : ReadFault → String
  | json fault => fault.message
  | toml => "malformed TOML"

/-- **The sessions of a text.** -/
def Session.parse (text : String) : SessionFormat → Except ReadFault (List Session)
  | .json => (Session.readJson text).mapError ReadFault.json
  | .toml =>
    match Toml.decode? Session.fileDecoder text with
    | some sessions => .ok sessions
    | none => .error .toml

end Scoresheet
