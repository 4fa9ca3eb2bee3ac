import Scoresheet.Decimal.Reading
import Scoresheet.Formula.Error
import Scoresheet.Formula.Token
import Scoresheet.Text.Blank

/-!
# Bindings

A binding gives a variable the text of a number. Putting bindings into a token sequence replaces
names by numbers and leaves every other token alone, so a bound text is never read as anything but
one number.

* `Bindings` — texts by variable name, each name once.
* `boundValue` — the number that a bound text stands for.
* `substitute` — a token sequence with its bound names replaced.
-/

namespace Scoresheet.Formula

/-- Texts by variable name, in the order in which the names were first bound. -/
structure Bindings where
  entries : List (String × String) := []
deriving Repr, DecidableEq

namespace Bindings

/-- The text bound to a name. -/
def find? (bindings : Bindings) (name : String) : Option String :=
  bindings.entries.lookup name

/-- The bindings with a text bound to a name, in place of the name's text if it has one. -/
def insert (bindings : Bindings) (name text : String) : Bindings :=
  if (bindings.find? name).isSome then
    ⟨bindings.entries.map fun entry => if entry.1 = name then (name, text) else entry⟩
  else ⟨bindings.entries ++ [(name, text)]⟩

/-- The bindings of a list of pairs, where a later pair counts before an earlier one. -/
def ofList (pairs : List (String × String)) : Bindings :=
  pairs.foldl (fun bindings pair => bindings.insert pair.1 pair.2) {}

end Bindings

/-- The finite number that a bound text stands for; blanks around it are ignored. -/
def boundValue (name text : String) : Except Error Float :=
  match Decimal.ofText? (Text.trim text.toList) with
  | some value => if value.isFinite then .ok value else .error (.invalidBinding name text)
  | none => .error (.invalidBinding name text)

/-- The token that stands for a token under the bindings. -/
def Token.bind (bindings : Bindings) : Token → Except Error Token
  | .identifier name =>
    match bindings.find? name with
    | some text => (boundValue name text).map Token.number
    | none => .ok (.identifier name)
  | token => .ok token

/-- **A token sequence with its bound names replaced by numbers.** Names of functions and unbound
names stay. -/
def substitute (bindings : Bindings) (tokens : List Token) : Except Error (List Token) :=
  tokens.mapM (Token.bind bindings)

end Scoresheet.Formula
