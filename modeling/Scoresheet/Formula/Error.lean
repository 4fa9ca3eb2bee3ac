/-!
# What can go wrong with a formula

Every stage stops at its first fault. A fault is a cause with the data that its message shows; the
wording stands in `GrammarFault.message`, `StackFault.message` and `Error.message` alone.

* `Error` — the faults of all stages.
* `Error.kind` — their coarse class, which is stored with the results.
* `Error.message` — the one wording of each.
-/

namespace Scoresheet.Formula

/-- Why a token sequence is no formula. -/
inductive GrammarFault where
  | emptyFormula
  /-- A token that starts an operand stands where an operator is due. -/
  | missingOperator (token : String)
  /-- A token that needs an operand on its left has none. -/
  | missingOperand (token : String)
  | missingArgument
  /-- The name of a function without its opening parenthesis. -/
  | missingParenthesis (function : String)
  | commaOutsideCall
  | unmatchedOpening
  | unmatchedClosing
  | unexpectedEnd
  | wrongArgumentCount (function : String) (expected given : Nat)
deriving Repr, DecidableEq

/-- Why a postfix sequence does not run. -/
inductive StackFault where
  | unexpectedToken (token : String)
  | missingOperands (operation : String) (needed found : Nat)
  | arityMismatch (function : String) (arity declared : Nat)
  | noValue
  | leftover (count : Nat)
deriving Repr, DecidableEq

/-- Why a formula has no value. -/
inductive Error where
  /-- A character outside the grammar, and its position counted in characters. -/
  | lexical (character : Char) (position : Nat)
  | grammar (fault : GrammarFault)
  /-- A name without a value, or a function that does not exist. -/
  | unknownSymbol (name : String)
  | divisionByZero
  | stack (fault : StackFault)
  /-- A literal, an operation or an aggregation gave no finite number. -/
  | nonFinite (origin : String)
  /-- The text bound to a variable denotes no finite number. -/
  | invalidBinding (name : String) (text : String)
  /-- Two values are bound to one variable. -/
  | duplicateBinding (name : String)
deriving Repr, DecidableEq

/-- The coarse class of an error. -/
inductive ErrorKind where
  | lex
  | grammar
  | unknownSymbol
  | divisionByZero
  | malformedExpression
  | nonFinite
  | binding
deriving Repr, DecidableEq

/-- The wording of a grammar fault. -/
def GrammarFault.message : GrammarFault → String
  | .emptyFormula => "empty expression"
  | .missingOperator token => "missing operator before '" ++ token ++ "'"
  | .missingOperand token => "missing operand before '" ++ token ++ "'"
  | .missingArgument => "missing argument before ','"
  | .missingParenthesis function => "function '" ++ function ++ "' must be followed by '('"
  | .commaOutsideCall => "',' outside of a function call"
  | .unmatchedOpening => "unmatched '('"
  | .unmatchedClosing => "unmatched ')'"
  | .unexpectedEnd => "unexpected end of expression"
  | .wrongArgumentCount function expected given =>
    function ++ " expects " ++ toString expected ++ " argument(s), got " ++ toString given

/-- The wording of a stack fault. -/
def StackFault.message : StackFault → String
  | .unexpectedToken token => "unexpected '" ++ token ++ "' in postfix input"
  | .missingOperands operation needed found =>
    "'" ++ operation ++ "' needs " ++ toString needed ++ " operand(s), found " ++ toString found
  | .arityMismatch function arity declared =>
    function ++ " takes " ++ toString arity ++ " argument(s), postfix token says "
      ++ toString declared
  | .noValue => "expression produced no value"
  | .leftover count => toString count ++ " values left on the stack"

namespace Error

/-- The class of an error. -/
def kind : Error → ErrorKind
  | lexical .. => .lex
  | grammar _ => .grammar
  | unknownSymbol _ => .unknownSymbol
  | divisionByZero => .divisionByZero
  | stack _ => .malformedExpression
  | nonFinite _ => .nonFinite
  | invalidBinding .. | duplicateBinding _ => .binding

/-- The wording of an error. -/
def message : Error → String
  | lexical character position =>
    "unexpected character '" ++ character.toString ++ "' at position " ++ toString position
  | grammar fault => "syntax error: " ++ fault.message
  | unknownSymbol name => "unknown symbol: " ++ name
  | divisionByZero => "division by zero"
  | stack fault => "malformed expression: " ++ fault.message
  | nonFinite origin => "non-finite result from " ++ origin
  | invalidBinding name text => "invalid value '" ++ text ++ "' for variable '" ++ name ++ "'"
  | duplicateBinding name => "variable '" ++ name ++ "' is bound more than once"

end Error

namespace ErrorKind

/-- All classes. -/
def all : List ErrorKind :=
  [lex, grammar, unknownSymbol, divisionByZero, malformedExpression, nonFinite, binding]

/-- The name of a class in stored results. -/
def name : ErrorKind → String
  | lex => "lex"
  | grammar => "syntax"
  | unknownSymbol => "unknown_symbol"
  | divisionByZero => "division_by_zero"
  | malformedExpression => "malformed_expression"
  | nonFinite => "non_finite"
  | binding => "binding"

/-- The class of the given name. -/
def ofName? (name : String) : Option ErrorKind :=
  all.find? fun kind => kind.name == name

@[simp] theorem ofName?_name (kind : ErrorKind) : ofName? kind.name = some kind := by
  cases kind <;> rfl

end ErrorKind

end Scoresheet.Formula
