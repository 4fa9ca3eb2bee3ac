import Scoresheet.Command
import Scoresheet.Formula.Evaluation
import Scoresheet.Report.Codec
import Scoresheet.Session.Validation

/-!
# Commands that only look

Four commands read and print, and change nothing: one evaluates a formula, one validates sessions,
one compares two reports, one verifies an envelope.

* `Command.evaluation` — the value of a formula.
* `Command.validation` — the findings about sessions.
* `Command.comparison` — what changed between two reports.
* `Command.verification` — whether an envelope is genuine.
-/

namespace Scoresheet.Command

/-! ### Evaluation -/

/-- The bindings of arguments, each a name, an equals sign and a value. -/
def bindingsFrom (bindings : Formula.Bindings) : List String → Except Failure Formula.Bindings
  | [] => .ok bindings
  | argument :: rest =>
    let cs := argument.toList
    match cs.dropWhile (· ≠ '=') with
    | [] => .error (.noEqualsSign argument)
    | _ :: value =>
      let name := String.ofList (Text.trim (cs.takeWhile (· ≠ '=')))
      if name.isEmpty then .error (.noVariableName argument)
      else if (bindings.find? name).isSome then .error (.repeatedVariable name)
      else bindingsFrom (bindings.insert name (String.ofList (Text.trim value))) rest

/-- The postfix form of a formula under bindings. -/
def postfixForm (formula : String) (bindings : Formula.Bindings) : Except Formula.Error String := do
  let tokens ← Formula.tokenize formula
  let substituted ← Formula.substitute bindings tokens
  return Formula.render (← Formula.toPostfix substituted)

/-- The line that shows the postfix form, if it is to be shown. -/
def postfixLines (formula : String) (bindings : Formula.Bindings) (shown : Bool) :
    Except Failure (List String) :=
  if shown then
    ((postfixForm formula bindings).map fun form => ["postfix: " ++ form]).mapError Failure.formula
  else .ok []

/-- **The value of a formula,** under variables given as arguments. -/
def evaluation (formula : String) (assignments : List String) (showPostfix : Bool) :
    Except Failure Transcript := do
  let bindings ← bindingsFrom {} assignments
  let shown ← postfixLines formula bindings showPostfix
  let t : Transcript := { messages := shown }
  match Formula.evaluate formula bindings with
  | .ok value => return { t with output := [Decimal.plain value] }
  | .error e => return t.fail (.evaluation formula e)

/-! ### Validation -/

/-- What is printed of a finding about a session. -/
def warningLine (session : Session) (w : Warning) : String :=
  let place := match w.answerIndex.bind fun i => session.answers[i]? with
    | some answer => "  [" ++ answer.key.text ++ "]"
    | none => "  "
  place ++ " WARNING: " ++ w.problem.message

/-- What is printed of the findings about a session. -/
def sessionLines (session : Session) : List String :=
  if session.warnings.isEmpty then []
  else ("Session " ++ idText session.id ++ " (" ++ toString session.answers.length ++ " answers)")
    :: session.warnings.map (warningLine session)

/-- What is printed of the findings about sessions. -/
def validationLines (sessions : List Session) : List String :=
  let found := (sessions.flatMap Session.warnings).length
  ("Loaded " ++ toString sessions.length ++ " session(s)") :: sessions.flatMap sessionLines
    ++ if found = 0 then ["All sessions valid."] else ["", toString found ++ " warning(s) found."]

variable {m : Type → Type} [Monad m] [Host m]

/-- **The findings about sessions.** -/
def validation (path : Path) : ExceptT Failure m Transcript := do
  let sessions ← ExceptT.adapt Failure.sessions (Session.load path)
  return .ofLines (validationLines sessions)

/-! ### Comparison -/

/-- The report of a file. -/
def readReport (path : Path) : ExceptT Failure m Report := do
  match ← Host.readText path with
  | .error fault => throw (.unreadableReport path fault)
  | .ok text =>
    MonadExcept.ofExcept ((Json.decode Report.decoder text).mapError Failure.malformedReport)

/-- What is printed of a session whose total changed. -/
def changeLine (c : TotalChange) : String :=
  let total (t : Option Float) := t.elim "n/a" Decimal.plain
  "  session " ++ idText c.sessionId ++ ": " ++ total c.baseline ++ " -> " ++ total c.current
    ++ c.delta.elim "" fun d => " (" ++ Decimal.signed Decimal.plain d ++ ")"

/-- What is printed of a comparison for a reader at the terminal. -/
def comparisonLines (c : Comparison) : List String :=
  let changes :=
    if c.changes.isEmpty then [] else "" :: "Changed totals:" :: c.changes.map changeLine
  let new :=
    if c.newSessions.isEmpty then []
    else ["", toString c.newSessions.length ++ " new session(s)"]
  let removed :=
    if c.removedSessions.isEmpty then []
    else [toString c.removedSessions.length ++ " removed session(s)"]
  ("Comparison: " ++ toString c.changes.length ++ " changed, " ++ toString c.unchanged
      ++ " unchanged")
    :: changes ++ new ++ removed

/-- What is printed of a comparison in a format. -/
def formattedComparison (format : String) (c : Comparison) : List String :=
  match format with
  | "markdown" | "md" => [c.markdown]
  | "json" => [c.toJson.pretty]
  | _ => comparisonLines c

/-- **What changed between two reports.** Changes may be asked to count as a failure. -/
def comparison (o : CompareOptions) : ExceptT Failure m Transcript := do
  -- What is no number is not at least zero either.
  if !(0.0 ≤ o.threshold) then throw .negativeThreshold
  let baseline ← readReport o.baseline
  let current ← readReport o.current
  let c := current.compare baseline o.threshold
  return {
    output := formattedComparison o.format c
    exitCode := if o.failOnChange && c.hasChanges then 1 else 0 }

/-! ### Verification -/

/-- What is printed of an envelope that is genuine. -/
def envelopeLines (envelope : Signing.Envelope) : List String :=
  let report := match Report.decoder .value envelope.payload.toNode with
    | .ok report =>
      ["Batch report " ++ report.id.text ++ ": " ++ toString report.breakdowns.length ++ " scored, "
        ++ toString report.failures.length ++ " failed"]
    | .error _ => []
  ("Signature OK (" ++ envelope.algorithm ++ ")") :: report

/-- The key of the settings. -/
def signingKey (settings : Settings) : Except Failure Signing.Key :=
  (Signing.Key.ofSetting settings.signingKey).mapError Failure.signing

/-- **Whether an envelope is genuine.** A missing key counts before anything about the envelope. -/
def verification (path : Path) (settings? : Option Path) : ExceptT Failure m Transcript := do
  let settings ← ExceptT.adapt Failure.settings (Settings.load settings?)
  let key ← MonadExcept.ofExcept (signingKey settings)
  match ← Host.readText path with
  | .error fault => throw (.unreadableEnvelope path fault)
  | .ok text =>
    let envelope ← MonadExcept.ofExcept
      ((Json.decode Signing.Envelope.decoder text).mapError (Failure.malformedEnvelope path))
    MonadExcept.ofExcept ((Signing.verify key envelope).mapError (Failure.notVerified path))
    return .ofLines (envelopeLines envelope)

end Scoresheet.Command
