import Scoresheet.Command

/-!
# The starting command

A user who starts is given settings and a session as an example. Files that are there are left as
they are.

* `Command.starting` — the command.
-/

namespace Scoresheet.Command

/-- A text of lines, with a line break after each. -/
def textOfLines (lines : List String) : String :=
  String.join (lines.map (· ++ "\n"))

/-- Settings to start with. -/
def exampleSettings : String := textOfLines
  ["# scorecalc configuration",
   "",
   "parallelism = 4",
   "output_dir = \"./scorecalc-results\"",
   "signing_key = \"$\x7bSCORECALC_SIGNING_KEY\x7d\"",
   "",
   "[calculator]",
   "# abort: the first failing answer fails the session",
   "# record: keep going, mark the answer failed, withhold the total",
   "failure_policy = \"abort\"",
   "# sum, mean, min, max",
   "aggregation = \"sum\""]

/-- A session to start with. -/
def exampleSession : String := textOfLines
  ["\x7b",
   "  \"id\": 1,",
   "  \"dateTime\": \"2024-03-01T10:00:00Z\",",
   "  \"iskid\": false,",
   "  \"answers\": [",
   "    \x7b",
   "      \"possibleAnswer\": \x7b",
   "        \"id\": 1,",
   "        \"name\": \"Gas heating\",",
   "        \"formula\": \"10 + 5\",",
   "        \"question\": \x7b \"id\": 1, \"name\": \"Heating\" \x7d",
   "      \x7d",
   "    \x7d,",
   "    \x7b",
   "      \"possibleAnswer\": \x7b",
   "        \"id\": 2,",
   "        \"name\": \"Car\",",
   "        \"formula\": \"distance * factor\",",
   "        \"question\": \x7b \"id\": 2, \"name\": \"Commute\" \x7d",
   "      \x7d,",
   "      \"variableValues\": [",
   "        \x7b \"variable\": \x7b \"name\": \"distance\" \x7d, \"value\": 100 \x7d,",
   "        \x7b \"variable\": \x7b \"name\": \"factor\" \x7d, \"value\": 2.5 \x7d",
   "      ]",
   "    \x7d",
   "  ]",
   "\x7d"]

/-- The directory of the example session. -/
def exampleDirectory : Path := ⟨"sessions"⟩

/-- The file of the example session. -/
def exampleFile : Path := ⟨"sessions/example.json"⟩

/-- What is printed at the end. -/
def nextSteps : List String :=
  ["",
   "Next steps:",
   "  1. Set SCORECALC_SIGNING_KEY if you want signed reports",
   "  2. Run: scorecalc validate --sessions sessions/example.json",
   "  3. Run: scorecalc score --sessions sessions/example.json"]

variable {m : Type → Type} [Monad m] [Host m]

/-- A file written unless it is there, and what is printed of it. -/
def writeNew (path : Path) (content : String) : ExceptT FileFault m String := do
  if ← Host.hasFile path then return path.text ++ " already exists, skipping."
  MonadExcept.ofExcept (← Host.write path content.toUTF8)
  return "Created " ++ path.text

/-- **Settings and a session to start with.** What was printed before a failure stays printed. -/
def starting : m Transcript := do
  match ← writeNew Settings.localFile exampleSettings with
  | .error fault => return ({} : Transcript).fail (.file fault)
  | .ok first =>
    let t := Transcript.ofLines [first]
    match ← Host.makeDirectories exampleDirectory with
    | .error fault => return t.fail (.file fault)
    | .ok () =>
      match ← writeNew exampleFile exampleSession with
      | .error fault => return t.fail (.file fault)
      | .ok second => return .ofLines (first :: second :: nextSteps)

end Scoresheet.Command
