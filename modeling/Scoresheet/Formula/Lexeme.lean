import Scoresheet.Decimal.Reading
import Scoresheet.Formula.Builtin
import Scoresheet.Formula.Error
import Scoresheet.Formula.Token
import Scoresheet.Text.Blank

/-!
# Lexemes

A formula is cut into lexemes from left to right; blanks separate them and mean nothing else. No
structure is checked here: `2 +` and `((` are sequences of lexemes like any other.

* `Lexeme` — a token together with the length of the text that denotes it.
* `lexeme` — the lexeme at the head of a text.
* `tokenize` — the tokens of a whole formula.
* `spans` — the same tokens, each with the part of the formula that denotes it.
-/

namespace Scoresheet.Formula

/-- A token and the number of characters, after its first, of the text that denotes it. -/
structure Lexeme where
  token : Token
  more : Nat

/-- Whether a name may start with the character. -/
def isNameStart (c : Char) : Bool :=
  c.isAlpha || c == '_'

/-- Whether a name may go on with the character. -/
def isNamePart (c : Char) : Bool :=
  c.isAlphanum || c == '_'

/-- The longest leading run of digits with at most one point among them, or with none where
`pointSeen` says that the point is already behind. -/
def numberRun (pointSeen : Bool) : List Char → List Char
  | [] => []
  | c :: rest =>
    if c.isDigit then c :: numberRun pointSeen rest
    else if c = '.' ∧ pointSeen = false then c :: numberRun true rest
    else []

/-- Whether a number starts here: at a digit, or at a point before a digit. -/
def startsNumber : List Char → Bool
  | '.' :: next :: _ => next.isDigit
  | c :: _ => c.isDigit
  | [] => false

/-- The number at the head of a text. Its value must be finite. -/
def numberLexeme (position : Nat) (first : Char) (text : List Char) : Except Error Lexeme :=
  let run := numberRun false text
  match Decimal.ofText? run with
  -- A run that starts a number denotes one, so this is never met.
  | none => .error (.lexical first position)
  | some value =>
    if value.isFinite then .ok ⟨.number value, run.length - 1⟩
    else .error (.nonFinite ("literal at position " ++ toString position))

/-- The token of a name, given what follows it: the next character other than a blank decides
whether it is called. -/
def nameToken (name : String) (following : List Char) : Token :=
  match Text.trimStart following with
  | '(' :: _ => .function name ((Builtin.ofName? name).elim 0 Builtin.arity)
  | _ => .identifier name

/-- The token that a single character denotes. -/
def signToken? : Char → Option Token
  | '(' => some .leftParen
  | ')' => some .rightParen
  | ',' => some .comma
  | c => (Operator.ofChar? c).map Token.operator

/-- **The lexeme at the head of a text** that does not start with a blank. Numbers and names extend
as far as they can. -/
def lexeme (position : Nat) (first : Char) (rest : List Char) : Except Error Lexeme :=
  if startsNumber (first :: rest) then numberLexeme position first (first :: rest)
  else if isNameStart first then
    let tail := rest.takeWhile isNamePart
    .ok ⟨nameToken (String.ofList (first :: tail)) (rest.dropWhile isNamePart), tail.length⟩
  else match signToken? first with
    | some token => .ok ⟨token, 0⟩
    | none => .error (.lexical first position)

/-- A token and the part of the formula that denotes it: the characters from `start` on, `length`
many. -/
structure Span where
  start : Nat
  length : Nat
  token : Token

/-- The tokens of a text whose first character has the given position, each with its span. -/
def spansFrom (position : Nat) : List Char → Except Error (List Span)
  | [] => .ok []
  | c :: rest =>
    if Text.isBlank c then spansFrom (position + 1) rest
    else match lexeme position c rest with
      | .error e => .error e
      | .ok found =>
        match spansFrom (position + 1 + found.more) (rest.drop found.more) with
        | .error e => .error e
        | .ok spans => .ok (⟨position, found.more + 1, found.token⟩ :: spans)
termination_by text => text.length
decreasing_by
  all_goals simp only [List.length_cons, List.length_drop]; omega

/-- The tokens of a formula with their spans, positions counted in characters from zero. -/
def spans (formula : String) : Except Error (List Span) :=
  spansFrom 0 formula.toList

/-- **The tokens of a formula.** -/
def tokenize (formula : String) : Except Error (List Token) :=
  (spans formula).map (·.map Span.token)

end Scoresheet.Formula
