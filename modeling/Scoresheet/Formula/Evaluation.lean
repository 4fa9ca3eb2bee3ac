import Scoresheet.Formula.Binding
import Scoresheet.Formula.Lexeme
import Scoresheet.Formula.Machine
import Scoresheet.Formula.Postfix

/-!
# The value of a formula

Four stages follow one another: the formula is cut into tokens, bound names are replaced by numbers,
the tokens are put into postfix order, and the postfix sequence runs. The first fault ends it.

* `evaluate` — the value of a formula under bindings.
* `freeVariables` — the names that a formula reads.
* `trace` — how far a formula gets, stage by stage.
-/

namespace Scoresheet.Formula

/-- **The value of a formula under bindings.** -/
def evaluate (formula : String) (bindings : Bindings) : Except Error Float := do
  let tokens ← tokenize formula
  let substituted ← substitute bindings tokens
  let postfixed ← toPostfix substituted
  evaluatePostfix postfixed

/-- The name that a token reads as a variable. -/
def Token.name? : Token → Option String
  | .identifier name => some name
  | _ => none

/-- The first occurrence of every element, in order. -/
def firstOccurrences {α : Type} [DecidableEq α] : List α → List α
  | [] => []
  | a :: rest => a :: (firstOccurrences rest).filter (· ≠ a)

/-- The names that a formula reads as variables, each once, in the order of their first occurrence.
The formula must be convertible to postfix. -/
def freeVariables (formula : String) : Except Error (List String) := do
  let tokens ← tokenize formula
  let _ ← toPostfix tokens
  return firstOccurrences (tokens.filterMap Token.name?)

/-- A stage of the evaluation. -/
inductive Stage where
  | tokens
  | substitution
  | conversion
  | machine
deriving Repr, DecidableEq

/-- What each stage made of a formula, as far as it got, and how it ended. -/
structure Trace where
  tokens : Option (List Token) := none
  substituted : Option (List Token) := none
  postfixed : Option (List Token) := none
  result : Except (Stage × Error) Float

/-- **How far a formula gets.** -/
def trace (formula : String) (bindings : Bindings) : Trace :=
  match tokenize formula with
  | .error e => ⟨none, none, none, .error (.tokens, e)⟩
  | .ok tokens =>
    match substitute bindings tokens with
    | .error e => ⟨some tokens, none, none, .error (.substitution, e)⟩
    | .ok substituted =>
      match toPostfix substituted with
      | .error e => ⟨some tokens, some substituted, none, .error (.conversion, e)⟩
      | .ok postfixed =>
        ⟨some tokens, some substituted, some postfixed,
          (evaluatePostfix postfixed).mapError (Stage.machine, ·)⟩

/-- The trace ends as the evaluation does. -/
theorem trace_result (formula : String) (bindings : Bindings) :
    (trace formula bindings).result.mapError Prod.snd = evaluate formula bindings := by
  unfold trace evaluate
  cases tokenize formula with
  | error e => rfl
  | ok tokens =>
    cases hs : substitute bindings tokens with
    | error e => simp only [hs, bind, Except.bind]; rfl
    | ok substituted =>
      cases hp : toPostfix substituted with
      | error e => simp only [hs, hp, bind, Except.bind]; rfl
      | ok postfixed =>
        cases hv : evaluatePostfix postfixed <;> simp only [hs, hp, hv, bind, Except.bind] <;> rfl

end Scoresheet.Formula
