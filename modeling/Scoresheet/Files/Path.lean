import Scoresheet.Text.Fields

/-!
# Paths

A path names a file by the steps that lead to it, with slashes between them. It is kept as it is
written, since messages show it so.

* `Path.steps` — the steps that lead to the file.
* `Path.fileName?`, `Path.extension?` — the name of the file and the part after its last dot.
* `Path.join` — a path continued by another.
-/

namespace Scoresheet

/-- A path as it is written. -/
structure Path where
  text : String
deriving DecidableEq

namespace Path

/-- The steps between the slashes. A step is never empty. -/
def steps (path : Path) : List String :=
  ((Text.fields '/' path.text.toList).filter (· ≠ [])).map String.ofList

/-- Whether a path starts at the root. -/
def isAbsolute (path : Path) : Bool :=
  path.text.toList.head? == some '/'

/-- Whether a path ends with a slash, so that it can only name a directory. -/
def endsWithSlash (path : Path) : Bool :=
  path.text.toList.getLast? == some '/'

/-- Whether a path holds the character that ends a path for the system. -/
def hasNul (path : Path) : Bool :=
  path.text.toList.any fun c => c.toNat == 0

/-- The steps other than those that stay in place. -/
def moves (path : Path) : List String :=
  path.steps.filter (· ≠ ".")

/-- The path that steps make. -/
def ofSteps (absolute : Bool) (steps : List String) : Path :=
  ⟨(if absolute then "/" else "") ++ "/".intercalate steps⟩

/-- The paths of the directories that a path leads through, the last one first. -/
def ancestors (path : Path) : List Path :=
  (List.range (path.moves.length - 1)).reverse.map fun n =>
    ofSteps path.isAbsolute (path.moves.take (n + 1))

/-- The name of the file that a path leads to, unless it leads back or nowhere. -/
def fileName? (path : Path) : Option String :=
  match path.moves.getLast? with
  | some ".." => none
  | name? => name?

/-- The part of a name after its last dot, if there is something in front of that dot. -/
def nameExtension? (name : String) : Option String :=
  let after := name.toList.reverse.takeWhile (· ≠ '.')
  -- A dot at the start of a name begins no extension.
  let before := (name.toList.reverse.dropWhile (· ≠ '.')).drop 1
  if before = [] then none else some (String.ofList after.reverse)

/-- The part of the file's name after its last dot. -/
def extension? (path : Path) : Option String :=
  path.fileName?.bind nameExtension?

/-- A path continued by another, unless that one starts at the root. -/
def join (path next : Path) : Path :=
  if next.isAbsolute then next
  else if path.text.isEmpty || path.endsWithSlash then ⟨path.text ++ next.text⟩
  else ⟨path.text ++ "/" ++ next.text⟩

end Path

end Scoresheet
