import Scoresheet.Command

/-!
# Arguments

A command is asked for by its name and arguments: options with a value, given after the option or
after an equals sign; flags; and for one command an operand, which may start with a hyphen.

* `Grammar` — what arguments a command takes.
* `Grammar.read` — the arguments sorted out.
* `Command.ofArguments` — the command that arguments ask for.
-/

namespace Scoresheet

/-- An option that takes a value. -/
structure OptionRule where
  name : String
  /-- Whether the option may be given more than once. -/
  repeatable : Bool := false
  /-- Whether a text is a value of the option. -/
  accepts : String → Bool

/-- What arguments a command takes. -/
structure Grammar where
  options : List OptionRule := []
  flags : List String := []
  /-- Whether the command takes an operand. -/
  operand : Bool := false

/-- Arguments sorted out. -/
structure Arguments where
  /-- The values of options in the order in which they are given. -/
  values : List (String × String) := []
  flags : List String := []
  operand : Option String := none

/-- Why no command is run. -/
inductive Refusal where
  /-- Help is asked for. -/
  | help
  /-- The version is asked for. -/
  | version
  /-- The arguments ask for nothing. -/
  | misuse
deriving DecidableEq

namespace Arguments

/-- The first value of an option. -/
def value? (a : Arguments) (name : String) : Option String :=
  a.values.lookup name

/-- All values of an option. -/
def valuesOf (a : Arguments) (name : String) : List String :=
  a.values.filterMap fun (n, v) => if n = name then some v else none

/-- Whether a flag is given. -/
def has (a : Arguments) (flag : String) : Bool :=
  a.flags.contains flag

end Arguments

namespace Grammar

/-- The option with a name. -/
def option? (g : Grammar) (name : String) : Option OptionRule :=
  g.options.find? fun rule => rule.name == name

/-- The arguments with a value for an option. -/
def addValue (rule : OptionRule) (value : String) (a : Arguments) : Except Refusal Arguments :=
  if !rule.accepts value || !rule.repeatable && (a.value? rule.name).isSome then .error .misuse
  else .ok { a with values := a.values ++ [(rule.name, value)] }

/-- The arguments with a flag, which may be given once. -/
def addFlag (flag : String) (a : Arguments) : Except Refusal Arguments :=
  if a.has flag then .error .misuse else .ok { a with flags := a.flags ++ [flag] }

/-- The arguments with the operand, if one is taken and none was given. -/
def addOperand (g : Grammar) (operand : String) (a : Arguments) : Except Refusal Arguments :=
  if g.operand && a.operand.isNone then .ok { a with operand := some operand } else .error .misuse

/-- What an argument is by its looks. -/
inductive Shape where
  /-- Two hyphens: what follows are operands. -/
  | separator
  /-- Two hyphens and a name, perhaps with a value after an equals sign. -/
  | long (name : String) (value? : Option String)
  /-- One hyphen and letters, at least one. -/
  | short (first : Char) (others : List Char)
  | plain

/-- The looks of an argument. -/
def shape (argument : String) : Shape :=
  match argument.toList with
  | ['-', '-'] => .separator
  | '-' :: '-' :: rest =>
    let name := String.ofList (rest.takeWhile (· ≠ '='))
    match rest.dropWhile (· ≠ '=') with
    | _ :: value => .long name (some (String.ofList value))
    | [] => .long name none
  | '-' :: first :: others => .short first others
  | _ => .plain

/-- Reading goes on with the arguments read so far and perhaps an option that waits for its value,
which is the next argument. -/
structure State where
  arguments : Arguments := {}
  waiting : Option OptionRule := none

/-- The state after an argument that is a value or an operand. -/
def takePlain (g : Grammar) (s : State) (argument : String) : Except Refusal State :=
  match s.waiting with
  | some rule => (addValue rule argument s.arguments).map (State.mk · none)
  | none => (g.addOperand argument s.arguments).map (State.mk · none)

/-- Help, unless an option still waits for its value. -/
def askHelp (s : State) : Except Refusal State :=
  .error (if s.waiting.isSome then .misuse else .help)

/-- The state after an argument that starts with two hyphens. A name that means nothing is a value
or an operand while the operand is still to come. -/
def takeLong (g : Grammar) (s : State) (argument name : String) (value? : Option String) :
    Except Refusal State :=
  match g.option? name with
  | some rule =>
    -- The name of an option is never taken for the value of another.
    if s.waiting.isSome then .error .misuse
    else match value? with
      | some value => (addValue rule value s.arguments).map (State.mk · none)
      | none => .ok { s with waiting := some rule }
  | none =>
    if g.flags.contains name || name = "help" then
      if s.waiting.isSome || value?.isSome then .error .misuse
      else if name = "help" then askHelp s
      else (addFlag name s.arguments).map (State.mk · none)
    else if g.operand && s.arguments.operand.isNone then g.takePlain s argument
    else .error .misuse

/-- The state after an argument that starts with one hyphen. The only letter with a meaning asks for
help; any other makes the argument a value or an operand while the operand is still to come. -/
def takeShort (g : Grammar) (s : State) (argument : String) (first : Char) (others : List Char) :
    Except Refusal State :=
  -- So a formula may start with a minus sign.
  if g.operand && s.arguments.operand.isNone && (first :: others).any (· ≠ 'h') then
    g.takePlain s argument
  else if first = 'h' then askHelp s
  else .error .misuse

/-- The state after an argument. -/
def take (g : Grammar) (s : State) (argument : String) : Except Refusal State :=
  match shape argument with
  | .separator => .error .misuse
  | .long name value? => g.takeLong s argument name value?
  | .short first others => g.takeShort s argument first others
  | .plain => g.takePlain s argument

/-- The arguments after operands. -/
def takeOperands (g : Grammar) (a : Arguments) (operands : List String) :
    Except Refusal Arguments :=
  operands.foldlM (fun a operand => g.addOperand operand a) a

/-- The arguments that are left to read, read from a state on. -/
def readFrom (g : Grammar) (s : State) : List String → Except Refusal Arguments
  | [] => if s.waiting.isSome then .error .misuse else .ok s.arguments
  | argument :: rest =>
    match shape argument with
    -- After the separator nothing is an option, and an option before it waits in vain.
    | .separator =>
      if s.waiting.isSome then .error .misuse else g.takeOperands s.arguments rest
    | _ => do g.readFrom (← g.take s argument) rest

/-- **Arguments sorted out,** unless help is asked for before the first misuse. -/
def read (g : Grammar) (arguments : List String) : Except Refusal Arguments :=
  g.readFrom {} arguments

end Grammar

/-! ### Values of options -/

/-- The path that a text names; the empty text names none. -/
def pathValue? (text : String) : Option Path :=
  if text.isEmpty then none else some ⟨text⟩

/-- The count that a text denotes: digits, perhaps after a plus sign, below 2^64. -/
def countValue? (text : String) : Option Nat :=
  let digits := match text.toList with
    | '+' :: digits => digits
    | digits => digits
  if digits = [] ∨ !digits.all Char.isDigit then none
  else
    let n := Decimal.digitsValue digits
    if n < Nat.pow 2 64 then some n else none

/-- The float that a text denotes. -/
def floatValue? (text : String) : Option Float :=
  Decimal.ofText? text.toList

namespace OptionRule

/-- An option whose value is any text. -/
def text (name : String) : OptionRule where
  name := name
  accepts _ := true

/-- An option whose value is read by a function. -/
def read {α : Type} (name : String) (value? : String → Option α) : OptionRule where
  name := name
  accepts s := (value? s).isSome

end OptionRule

/-! ### The commands -/

namespace Command

/-- The arguments of an evaluation. -/
def evaluateGrammar : Grammar where
  options := [{ OptionRule.text "var" with repeatable := true }]
  flags := ["postfix"]
  operand := true

/-- The arguments of a scoring run. -/
def scoreGrammar : Grammar where
  options := [.read "sessions" pathValue?, .read "output" pathValue?, .text "format",
    .read "failure-policy" fun s => (FailurePolicy.ofRequest s).toOption,
    .read "aggregation" fun s => (Aggregation.ofRequest s).toOption,
    .read "parallelism" countValue?, .read "config" pathValue?]
  flags := ["sign"]

/-- The arguments of a validation. -/
def validateGrammar : Grammar where
  options := [.read "sessions" pathValue?]

/-- The arguments of a comparison. -/
def compareGrammar : Grammar where
  options := [.read "baseline" pathValue?, .read "current" pathValue?,
    .read "threshold" floatValue?, .text "format"]
  flags := ["fail-on-change"]

/-- The arguments of a verification. -/
def verifyGrammar : Grammar where
  options := [.read "envelope" pathValue?, .read "config" pathValue?]

/-- A value that must be there. -/
def required {α : Type} : Option α → Except Refusal α
  | some a => .ok a
  | none => .error .misuse

/-- The path that an option gives. -/
def path? (a : Arguments) (name : String) : Option Path :=
  (a.value? name).bind pathValue?

/-- The scoring run that arguments ask for. -/
def scoreOptions (a : Arguments) : Except Refusal ScoreOptions := do
  let sessions ← required (path? a "sessions")
  return {
    sessions
    output := path? a "output"
    format := (a.value? "format").getD "json"
    sign := a.has "sign"
    failurePolicy := (a.value? "failure-policy").bind fun s => (FailurePolicy.ofRequest s).toOption
    aggregation := (a.value? "aggregation").bind fun s => (Aggregation.ofRequest s).toOption
    parallelism := (a.value? "parallelism").bind countValue?
    settings := path? a "config" }

/-- The comparison that arguments ask for. -/
def compareOptions (a : Arguments) : Except Refusal CompareOptions := do
  let baseline ← required (path? a "baseline")
  let current ← required (path? a "current")
  return {
    baseline
    current
    threshold := ((a.value? "threshold").bind floatValue?).getD 0.0
    failOnChange := a.has "fail-on-change"
    format := (a.value? "format").getD "text" }

/-- The names of the commands. -/
def names : List String :=
  ["eval", "score", "validate", "compare", "verify", "init"]

/-- The command with a name and arguments. -/
def ofName (name : String) (arguments : List String) : Except Refusal Command :=
  match name with
  | "eval" => do
    let a ← evaluateGrammar.read arguments
    return .evaluate (← required a.operand) (a.valuesOf "var") (a.has "postfix")
  | "score" => do
    return .score (← scoreOptions (← scoreGrammar.read arguments))
  | "validate" => do
    let a ← validateGrammar.read arguments
    return .validate (← required (path? a "sessions"))
  | "compare" => do
    return .compare (← compareOptions (← compareGrammar.read arguments))
  | "verify" => do
    let a ← verifyGrammar.read arguments
    return .verify (← required (path? a "envelope")) (path? a "config")
  | "init" => do
    let _ ← ({} : Grammar).read arguments
    return .start
  | _ => .error .misuse

/-- What is asked for about commands: help in general, or on one command. -/
def helpOn : List String → Refusal
  | [] => .help
  | [name] => if name = "help" || names.contains name then .help else .misuse
  | _ => .misuse

/-- What arguments ask for that do not start with the name of a command. -/
def refusalOf (argument : String) : Refusal :=
  match Grammar.shape argument with
  | .long "help" none => .help
  | .long "version" none => .version
  | .short 'h' _ => .help
  | .short 'V' _ => .version
  | _ => .misuse

/-- **The command that arguments ask for.** -/
def ofArguments : List String → Except Refusal Command
  | [] => .error .misuse
  | "help" :: rest => .error (helpOn rest)
  | name :: rest => if names.contains name then ofName name rest else .error (refusalOf name)

end Command

end Scoresheet
