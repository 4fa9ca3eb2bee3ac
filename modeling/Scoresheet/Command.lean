import Scoresheet.Session.Directory
import Scoresheet.Settings.Loading
import Scoresheet.Signing.Envelope

/-!
# Commands

What a user may ask for, why it may fail, and what a run leaves behind on the terminal.

* `Command` — what is asked for.
* `Failure` — why a command fails.
* `Transcript` — what a run prints and how it ends.
-/

namespace Scoresheet

/-- How sessions are to be scored. Whatever is not given comes from the settings. -/
structure ScoreOptions where
  sessions : Path
  output : Option Path
  format : String
  sign : Bool
  failurePolicy : Option FailurePolicy
  aggregation : Option Aggregation
  parallelism : Option Nat
  settings : Option Path

/-- How two reports are to be compared. -/
structure CompareOptions where
  baseline : Path
  current : Path
  threshold : Float
  failOnChange : Bool
  format : String

/-- What a user asks for. -/
inductive Command where
  /-- The value of a formula. A variable is given as its name, an equals sign and its value. -/
  | evaluate (formula : String) (assignments : List String) (showPostfix : Bool)
  | score (options : ScoreOptions)
  | validate (sessions : Path)
  | compare (options : CompareOptions)
  | verify (envelope : Path) (settings : Option Path)
  /-- Settings and a session to start with. -/
  | start

/-- Why a command fails. -/
inductive Failure where
  | formula (error : Formula.Error)
  | evaluation (formula : String) (error : Formula.Error)
  | noEqualsSign (argument : String)
  | noVariableName (argument : String)
  | repeatedVariable (name : String)
  | settings (error : Settings.LoadError)
  | sessions (error : Session.LoadError)
  | signing (error : Signing.Error)
  | noParallelism
  | unknownFormat (name : String)
  | noSessions (path : Path)
  | directoryNotMade (path : Path) (fault : FileFault)
  /-- A file that is described is not written. -/
  | notWritten (description : String) (path : Path) (fault : FileFault)
  | negativeThreshold
  | unreadableReport (path : Path) (fault : FileFault)
  | malformedReport (fault : Json.Fault)
  | unreadableEnvelope (path : Path) (fault : FileFault)
  | malformedEnvelope (path : Path) (fault : Json.Fault)
  | notVerified (path : Path) (error : Signing.Error)
  | file (fault : FileFault)
deriving DecidableEq

namespace Failure

/-- What is said of a signing error. A malformed signature is said to be so, and then why. -/
def signingChain : Signing.Error → List String
  | .malformedSignature fault => [(Signing.Error.malformedSignature fault).message, fault.message]
  | error => [error.message]

/-- **What is said of a failure,** from the outside in. -/
def chain : Failure → List String
  | .formula error => [error.message]
  | .evaluation source error => ["failed to evaluate '" ++ source ++ "'", error.message]
  | .noEqualsSign argument => ["invalid --var '" ++ argument ++ "', expected NAME=VALUE"]
  | .noVariableName argument => ["invalid --var '" ++ argument ++ "', name is empty"]
  | .repeatedVariable name => ["variable '" ++ name ++ "' given more than once"]
  | .settings error => error.chain
  | .sessions error => error.chain
  | .signing error => signingChain error
  | .noParallelism => ["parallelism must be at least 1"]
  | .unknownFormat name => ["unknown format: " ++ name ++ " (expected json, html, or all)"]
  | .noSessions path => ["no sessions found in " ++ path.text]
  | .directoryNotMade path fault =>
    ["failed to create output directory " ++ path.text, fault.message]
  | .notWritten description path fault =>
    ["failed to write " ++ description ++ " to " ++ path.text, fault.message]
  | .negativeThreshold => ["threshold must not be negative"]
  | .unreadableReport path fault => ["failed to read report from " ++ path.text, fault.message]
  | .malformedReport fault => ["failed to parse report JSON", fault.message]
  | .unreadableEnvelope path fault => ["failed to read envelope from " ++ path.text, fault.message]
  | .malformedEnvelope path fault =>
    ["failed to parse envelope " ++ path.text, "payload serialization failed: " ++ fault.message,
      fault.message]
  | .notVerified path error => ("verification failed for " ++ path.text) :: signingChain error
  | .file fault => [fault.message]

/-- The line in which a failure is told. -/
def message (failure : Failure) : String :=
  "Error: " ++ ": ".intercalate failure.chain

end Failure

/-- What a run prints and how it ends. -/
structure Transcript where
  /-- What is printed as the result, a line break after each. -/
  output : List String := []
  /-- What is told besides, a line break after each. -/
  messages : List String := []
  exitCode : Nat := 0

namespace Transcript

/-- A transcript of printed lines only. -/
def ofLines (lines : List String) : Transcript := { output := lines }

/-- A transcript that goes on with a failure and ends. -/
def fail (t : Transcript) (failure : Failure) : Transcript :=
  { t with messages := t.messages ++ [failure.message], exitCode := 1 }

/-- The transcript of a command that fails at once or leaves a transcript of its own. -/
def ofResult : Except Failure Transcript → Transcript
  | .ok t => t
  | .error failure => ({} : Transcript).fail failure

end Transcript

end Scoresheet
