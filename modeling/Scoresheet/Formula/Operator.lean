/-!
# Arithmetic operators

The five operators of a formula, with what the converter and the stack machine ask of each: how
tightly it binds, which way it groups, and how many operands it takes.

* `Operator.ofChar?` — the operator that a character of a formula denotes.
* `Operator.popsBefore` — the grouping rule for two neighbouring operators.
-/

namespace Scoresheet.Formula

/-- An arithmetic operator. -/
inductive Operator where
  | add
  | sub
  | mul
  | div
  /-- Unary minus. No character denotes it: the converter makes it of a minus sign that stands
  where an operand is due. -/
  | neg
deriving Repr, DecidableEq

/-- Which of two equal operators in a row is applied first. -/
inductive Associativity where
  | left
  | right
deriving Repr, DecidableEq

namespace Operator

/-- The text that stands for the operator in rendered tokens and messages. -/
def symbol : Operator → String
  | add => "+"
  | sub => "-"
  | mul => "*"
  | div => "/"
  | neg => "neg"

/-- How tightly the operator binds. -/
def precedence : Operator → Nat
  | add | sub => 1
  | mul | div => 2
  | neg => 3

/-- The grouping of equal operators: a sign applies to what follows it. -/
def associativity : Operator → Associativity
  | neg => .right
  | _ => .left

/-- The number of operands. -/
def arity : Operator → Nat
  | neg => 1
  | _ => 2

/-- The operator that a character denotes. A minus sign denotes subtraction. -/
def ofChar? : Char → Option Operator
  | '+' => some add
  | '-' => some sub
  | '*' => some mul
  | '/' => some div
  | _ => none

/-- **The grouping rule.** An operator `earlier` that is still waiting takes its operands before a
later operator `later` when it binds tighter, or as tightly and the later one groups to the left. -/
def popsBefore (earlier later : Operator) : Bool :=
  later.precedence < earlier.precedence
    || later.precedence == earlier.precedence && later.associativity == .left

end Operator

end Scoresheet.Formula
