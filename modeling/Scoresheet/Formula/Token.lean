import Scoresheet.Decimal.Layout
import Scoresheet.Formula.Operator

/-!
# Tokens

The lexical units of a formula, shared by every stage.

* `Token.text` — a token as messages and traces show it.
* `render` — a token sequence as text, one blank between neighbours.
-/

namespace Scoresheet.Formula

/-- One lexical unit of a formula. -/
inductive Token where
  | number (value : Float)
  /-- A name that is not called: a variable, or a name nothing is known about. -/
  | identifier (name : String)
  | operator (op : Operator)
  /-- A name before an opening parenthesis. In a formula the arity is that of the builtin, or zero
  for a name that is none; in postfix it is the number of arguments passed. -/
  | function (name : String) (arity : Nat)
  | leftParen
  | rightParen
  | comma
deriving DecidableEq

/-- The text of a token. -/
def Token.text : Token → String
  | number value => Decimal.plain value
  | identifier name => name
  | operator op => op.symbol
  | function name _ => name
  | leftParen => "("
  | rightParen => ")"
  | comma => ","

/-- A token sequence as text, with one blank between neighbours. -/
def render (tokens : List Token) : String :=
  " ".intercalate (tokens.map Token.text)

end Scoresheet.Formula
