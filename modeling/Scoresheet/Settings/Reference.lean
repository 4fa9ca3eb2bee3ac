import Scoresheet.Host

/-!
# References to variables

A setting may refer to variables of the environment, as `$` and a name in braces. A reference gives
place to the variable's value, and what results is searched again from its start, so that values
may hold references too, or be joined into one. This need not end.

* `nextReference?` — the first reference of a text.
* `replaceFirst` — one replacement.
* `expand` — a text without references, if the replacements come to an end.
-/

namespace Scoresheet.Settings

/-- A text cut at its first `$` that an opening brace follows, without the two. -/
def cutAtOpening : List Char → Option (List Char × List Char)
  | [] => none
  | c :: rest =>
    match c, rest with
    | '$', '\x7b' :: inside => some ([], inside)
    | c, rest => (cutAtOpening rest).map fun (before, inside) => (c :: before, inside)

/-- **The first reference of a text:** what stands before it, the name, and what stands after it. A
reference that is not closed is none, and nothing after it is one. -/
def nextReference? (text : List Char) : Option (List Char × String × List Char) := do
  let (before, inside) ← cutAtOpening text
  match inside.dropWhile (· ≠ '\x7d') with
  | _ :: after => some (before, String.ofList (inside.takeWhile (· ≠ '\x7d')), after)
  | [] => none

variable {m : Type → Type} [Monad m]

/-- **One replacement:** the text with the value of a variable in place of its first reference. A
text without references is the result of them all. -/
def replaceFirst (value : String → m String) (text : List Char) :
    m (List Char ⊕ List Char) := do
  match nextReference? text with
  | none => return .inr text
  | some (before, name, after) => return .inl (before ++ (← value name).toList ++ after)

/-- **A text whose references have given place to the values of their variables,** one after the
other, if a text without references comes of it. -/
def expand [Host m] (value : String → m String) (text : List Char) : m (Option (List Char)) :=
  Host.iterate (replaceFirst value) text

end Scoresheet.Settings
