import Scoresheet.Formula.Builtin
import Scoresheet.Formula.Error
import Scoresheet.Formula.Token

/-!
# The stack machine

A postfix sequence runs on a stack of finite numbers: an operand is pushed, an operation takes its
operands from the top and pushes its result. Anything that is not finite stops the run.

* `Operation.run` — one operation on the stack.
* `step` — one token.
* `evaluatePostfix` — the value of a whole sequence.
-/

namespace Scoresheet.Formula

/-- A number that must be finite; `origin` says what it came from. -/
def finite (origin : String) (value : Float) : Except Error Float :=
  if value.isFinite then .ok value else .error (.nonFinite origin)

/-- What an operator computes. Division by either zero is refused before the quotient is formed. -/
def Operator.operation : Operator → Operation (Except Error Float)
  | .neg => .unary fun a => .ok (-a)
  | .add => .binary fun a b => .ok (a + b)
  | .sub => .binary fun a b => .ok (a - b)
  | .mul => .binary fun a b => .ok (a * b)
  | .div => .binary fun a b => if b == 0.0 then .error .divisionByZero else .ok (a / b)

/-- **One operation on the stack,** whose top comes first: the operands are taken off and the
result, which must be finite, is put on. -/
def Operation.run (origin : String) :
    Operation (Except Error Float) → List Float → Except Error (List Float)
  | .unary f, a :: stack => do return (← finite origin (← f a)) :: stack
  -- The second operand was pushed last.
  | .binary f, b :: a :: stack => do return (← finite origin (← f a b)) :: stack
  | op, stack => .error (.stack (.missingOperands origin op.arity stack.length))

/-- A call on the stack. The token must carry the builtin's arity. -/
def call (name : String) (declared : Nat) (stack : List Float) : Except Error (List Float) :=
  match Builtin.ofName? name with
  | none => .error (.unknownSymbol name)
  | some f =>
    if f.arity = declared then (f.operation.map Except.ok).run name stack
    else .error (.stack (.arityMismatch name f.arity declared))

/-- One token on the stack. -/
def step (stack : List Float) : Token → Except Error (List Float)
  | .number value => (finite "literal" value).map (· :: stack)
  | .identifier name => .error (.unknownSymbol name)
  | .operator op => op.operation.run op.symbol stack
  | .function name declared => call name declared stack
  | .leftParen => .error (.stack (.unexpectedToken "("))
  | .rightParen => .error (.stack (.unexpectedToken ")"))
  | .comma => .error (.stack (.unexpectedToken ","))

/-- The stack after a sequence of tokens. -/
def runFrom (stack : List Float) (tokens : List Token) : Except Error (List Float) :=
  tokens.foldlM step stack

/-- **The value of a postfix sequence:** the one number left on the stack. -/
def evaluatePostfix (tokens : List Token) : Except Error Float :=
  match runFrom [] tokens with
  | .error e => .error e
  | .ok [value] => .ok value
  | .ok [] => .error (.stack .noValue)
  | .ok stack => .error (.stack (.leftover stack.length))

end Scoresheet.Formula
