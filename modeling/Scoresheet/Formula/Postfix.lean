import Scoresheet.Formula.Builtin
import Scoresheet.Formula.Error
import Scoresheet.Formula.Token

/-!
# Postfix order

A formula is reordered so that every operation follows its operands. Operators, parentheses and
calls wait in frames until their operands are out; the reading alternates between two states, one
in which an operand is due and one in which an operator is.

* `Frame` — what waits.
* `operandDue`, `operatorDue` — the two states of the reading.
* `toPostfix` — the tokens of a formula in postfix order.
-/

namespace Scoresheet.Formula

/-- What waits for its operands to be written. -/
inductive Frame where
  | operator (op : Operator)
  | parenthesis
  /-- A call whose parenthesis is open. `arguments` counts the arguments begun so far. -/
  | call (name : String) (declared arguments : Nat)
deriving Repr, DecidableEq

/-- What has been read: the tokens written, latest first, and the frames waiting, innermost
first. -/
structure Conversion where
  output : List Token := []
  frames : List Frame := []

namespace Conversion

/-- One more token is written. -/
def emit (token : Token) (state : Conversion) : Conversion :=
  ⟨token :: state.output, state.frames⟩

/-- One more frame waits. -/
def push (frame : Frame) (state : Conversion) : Conversion :=
  ⟨state.output, frame :: state.frames⟩

end Conversion

/-- The number of arguments that a call must have, if that is known: the builtin's arity, or for
another name the declared one unless it is zero. A name that is no builtin is left to the stack
machine to refuse. -/
def requiredArguments? (name : String) (declared : Nat) : Option Nat :=
  match Builtin.ofName? name with
  | some f => some f.arity
  | none => if declared = 0 then none else some declared

/-- The token of a finished call, which carries the number of arguments passed. -/
def closeCall (name : String) (declared passed : Nat) : Except GrammarFault Token :=
  match requiredArguments? name declared with
  | some required =>
    if required = passed then .ok (.function name passed)
    else .error (.wrongArgumentCount name required passed)
  | none => .ok (.function name passed)

/-- A closing parenthesis: the operators of the innermost group are written, and the group ends. -/
def closeGroup (output : List Token) : List Frame → Except GrammarFault Conversion
  | .operator op :: frames => closeGroup (.operator op :: output) frames
  | .parenthesis :: frames => .ok ⟨output, frames⟩
  | .call name declared passed :: frames =>
    (closeCall name declared passed).map fun token => ⟨token :: output, frames⟩
  | [] => .error .unmatchedClosing

/-- A comma: the operators of the argument before it are written, and another argument begins. -/
def nextArgument (output : List Token) : List Frame → Except GrammarFault Conversion
  | .operator op :: frames => nextArgument (.operator op :: output) frames
  | .call name declared passed :: frames => .ok ⟨output, .call name declared (passed + 1) :: frames⟩
  | .parenthesis :: _ | [] => .error .commaOutsideCall

/-- An operator between two operands: waiting operators that take their operands first are
written. -/
def yieldTo (later : Operator) (output : List Token) : List Frame → Conversion
  | .operator op :: frames =>
    if op.popsBefore later then yieldTo later (.operator op :: output) frames
    else ⟨output, .operator op :: frames⟩
  | frames => ⟨output, frames⟩

/-- The end of the formula: every operator that still waits is written, and no group is open. -/
def finish (output : List Token) : List Frame → Except GrammarFault (List Token)
  | .operator op :: frames => finish (.operator op :: output) frames
  | [] => .ok output.reverse
  | .parenthesis :: _ | .call .. :: _ => .error .unmatchedOpening

mutual

/-- **An operand is due.** A minus sign here is the unary one; it waits like any operator, and
nothing before it can be written yet. A call without arguments is an operand by itself. -/
def operandDue (state : Conversion) : List Token → Except GrammarFault (List Token)
  | [] => .error .unexpectedEnd
  | .number value :: rest => operatorDue (state.emit (.number value)) rest
  | .identifier name :: rest => operatorDue (state.emit (.identifier name)) rest
  -- No argument is due between parentheses that close at once.
  | .function name declared :: .leftParen :: .rightParen :: rest =>
    match closeCall name declared 0 with
    | .ok token => operatorDue (state.emit token) rest
    | .error fault => .error fault
  | .function name declared :: .leftParen :: rest =>
    operandDue (state.push (.call name declared 1)) rest
  | .function name _ :: _ => .error (.missingParenthesis name)
  | .leftParen :: rest => operandDue (state.push .parenthesis) rest
  | .rightParen :: _ => .error (.missingOperand ")")
  | .comma :: _ => .error .missingArgument
  | .operator .sub :: rest | .operator .neg :: rest => operandDue (state.push (.operator .neg)) rest
  | .operator op :: _ => .error (.missingOperand op.symbol)

/-- **An operator is due,** or whatever else may follow an operand. -/
def operatorDue (state : Conversion) : List Token → Except GrammarFault (List Token)
  | [] => finish state.output state.frames
  | .rightParen :: rest =>
    match closeGroup state.output state.frames with
    | .ok state => operatorDue state rest
    | .error fault => .error fault
  | .comma :: rest =>
    match nextArgument state.output state.frames with
    | .ok state => operandDue state rest
    | .error fault => .error fault
  | .operator op :: rest =>
    operandDue ((yieldTo op state.output state.frames).push (.operator op)) rest
  | token :: _ => .error (.missingOperator token.text)

end

/-- **The tokens of a formula in postfix order.** -/
def toPostfix (tokens : List Token) : Except Error (List Token) :=
  if tokens.isEmpty then .error (.grammar .emptyFormula)
  else (operandDue {} tokens).mapError Error.grammar

end Scoresheet.Formula
