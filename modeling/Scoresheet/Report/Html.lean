/-!
# Hypertext

A page is a sequence of pieces of markup, written as they are, and pieces of text, which must not be
read as markup. Five characters are dangerous in text; each is replaced by an entity.

* `escape` — a text made harmless.
* `Piece.render` — a page as text.
-/

namespace Scoresheet.Html

/-- A text with every occurrence of a character replaced. -/
def replaceChar (c : Char) (replacement : List Char) (text : List Char) : List Char :=
  text.flatMap fun d => if d = c then replacement else [d]

/-- The characters that are replaced and their entities. The ampersand comes first, since every
entity starts with one. -/
def entities : List (Char × List Char) :=
  [('&', "&amp;".toList), ('<', "&lt;".toList), ('>', "&gt;".toList), ('"', "&quot;".toList),
   ('\'', "&#x27;".toList)]

/-- The characters of a text made harmless: one character after the other is replaced throughout. -/
def escapeChars (text : List Char) : List Char :=
  entities.foldl (fun text entity => replaceChar entity.1 entity.2 text) text

/-- **A text made harmless.** -/
def escape (text : String) : String :=
  String.ofList (escapeChars text.toList)

/-- A piece of a page. -/
inductive Piece where
  /-- Markup, which is written as it is. -/
  | markup (text : String)
  /-- Text, which is written escaped. -/
  | text (text : String)
deriving DecidableEq

namespace Piece

/-- A piece as it is written. -/
def render : Piece → String
  | markup s => s
  | text s => escape s

/-- A page as it is written. -/
def renderAll (pieces : List Piece) : String :=
  String.join (pieces.map render)

end Piece

end Scoresheet.Html
