import Scoresheet.Command.Arguments
import Scoresheet.Command.Scoring
import Scoresheet.Command.Start

/-!
# Running commands

* `Command.run` — a command run on a host.
* `Command.runArguments` — what arguments ask for, run on a host.
-/

namespace Scoresheet.Command

variable {m : Type → Type} [Monad m] [Host m]

/-- **A command run on a host.** -/
def run : Command → m Transcript
  | .evaluate formula assignments showPostfix =>
    return .ofResult (evaluation formula assignments showPostfix)
  | .score o => do return .ofResult (← (scoring o).run)
  | .validate path => do return .ofResult (← (validation path).run)
  | .compare o => do return .ofResult (← (comparison o).run)
  | .verify path settings? => do return .ofResult (← (verification path settings?).run)
  | .start => starting

/-- How the program is called. -/
def usage : List String :=
  ["Quiz session formula scoring",
   "",
   "Usage: scorecalc <COMMAND>",
   "",
   "Commands:",
   "  eval      Evaluate a single formula: FORMULA [--var NAME=VALUE]... [--postfix]",
   "  score     Score sessions and write reports: --sessions PATH [--output DIR] " ++
     "[--format FORMATS]",
   "            [--sign] [--failure-policy POLICY] [--aggregation AGGREGATION] [--parallelism N]",
   "            [--config PATH]",
   "  validate  Validate session files: --sessions PATH",
   "  compare   Compare two batch reports: --baseline PATH --current PATH [--threshold X]",
   "            [--fail-on-change] [--format FORMAT]",
   "  verify    Verify a signed result envelope: --envelope PATH [--config PATH]",
   "  init      Create starter config and example session"]

/-- What is printed where no command is run. -/
def refused : Refusal → Transcript
  | .help => .ofLines usage
  | .version => .ofLines ["scorecalc 0.1.0"]
  | .misuse => { messages := usage, exitCode := 2 }

/-- **What arguments ask for, run on a host.** -/
def runArguments (arguments : List String) : m Transcript :=
  match ofArguments arguments with
  | .ok command => run command
  | .error refusal => return refused refusal

end Scoresheet.Command
