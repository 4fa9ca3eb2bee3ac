import Scoresheet.Files.Path
import Scoresheet.Report.Codec
import Scoresheet.Text.Quoted
import Scoresheet.Toml.Document

/-!
# Settings

What a scoring run is set up with: how sessions are scored, how many at once, where reports go, and
the key that signs them. Settings are written in TOML; each of them has a value of its own where it
is left out.

* `Settings` — the settings.
* `Settings.parse` — the settings of a text.
* `Settings.summary` — the settings as shown in a log, without the key.
-/

namespace Scoresheet

/-- The settings of a scoring run. -/
structure Settings where
  scoring : ScoringSettings := {}
  /-- The number of sessions scored at once, at most. -/
  parallelism : Nat := 4
  /-- The directory of the reports. -/
  outputDirectory : Path := ⟨"./scorecalc-results"⟩
  /-- The key that signs reports. -/
  signingKey : Option String := none
deriving DecidableEq

namespace Settings

open Json (Value Decoder Record applyFirst)

/-- Settings as JSON. -/
def toJson (s : Settings) : Value :=
  .object [("calculator", s.scoring.toJson), ("parallelism", .int s.parallelism),
    ("output_dir", .string s.outputDirectory.text),
    ("signing_key", .ofOption .string s.signingKey)]

/-- The decoder of settings, each of which may be left out. -/
def decoder : Decoder Settings := fun origin node => do
  let r ← Record.ofNode ["calculator", "parallelism", "output_dir", "signing_key"] origin node
  let fields := (r.fieldOr "calculator" {} ScoringSettings.decoder).map mk
  let fields := applyFirst fields (r.fieldOr "parallelism" 4 Decoder.count)
  let fields := applyFirst fields
    (r.fieldOr "output_dir" ⟨"./scorecalc-results"⟩ fun origin node =>
      (Decoder.string origin node).map Path.mk)
  r.build (applyFirst fields (r.fieldOr "signing_key" none (Decoder.optional Decoder.string)))

/-- Why a text gives no settings. -/
inductive ParseError where
  /-- The text is no TOML, or a setting has no value of its kind. -/
  | malformed
  | noParallelism
deriving DecidableEq

/-- The wording of an error. -/
def ParseError.message : ParseError → String
  | malformed => "malformed TOML"
  | noParallelism => "parallelism must be at least 1"

/-- **The settings of a text.** At least one session is scored at once. -/
def parse (text : String) : Except ParseError Settings :=
  match Toml.decode? decoder text with
  | none => .error .malformed
  | some settings => if 1 ≤ settings.parallelism then .ok settings else .error .noParallelism

/-! ### Summary -/

/-- A word with its first letter in upper case. -/
def capitalized (word : String) : String :=
  match word.toList with
  | [] => ""
  | c :: rest => String.ofList (c.toUpper :: rest)

/-- The scoring settings as shown in a log. -/
def scoringSummary (s : ScoringSettings) : String :=
  "CalculatorConfig \x7b failure_policy: " ++ capitalized s.failurePolicy.name ++ ", aggregation: "
    ++ capitalized s.aggregation.name ++ " \x7d"

/-- **The settings as shown in a log.** Of the key only its presence is shown. -/
def summary (s : Settings) : String :=
  "ScorecalcConfig \x7b calculator: " ++ scoringSummary s.scoring ++ ", parallelism: "
    ++ toString s.parallelism ++ ", output_dir: " ++ Text.quoted s.outputDirectory.text
    ++ ", signing_key: " ++ s.signingKey.elim "None" (fun _ => "Some(\"***\")") ++ " \x7d"

/-- The summary does not depend on the key. -/
theorem summary_withKey (s : Settings) (key key' : String) :
    ({ s with signingKey := some key }).summary = ({ s with signingKey := some key' }).summary :=
  rfl

end Settings

end Scoresheet
