import Scoresheet.Files.Path
import Scoresheet.Files.Tree

/-!
# File systems

A file system is a tree with a directory in it where paths start that do not start at the root.

* `FileSystem.locate` — the place that a path leads to.
* `FileSystem.look` — what stands there.
* `FileSystem.write` — a file written.
* `FileSystem.makeDirectory` — a directory made in one that exists.
-/

namespace Scoresheet

/-- A tree and the names that lead to the working directory. -/
structure FileSystem where
  root : FileTree
  workingDirectory : List String

namespace FileSystem

/-- A name takes at most this many bytes. -/
def nameLimit : Nat := 255

/-- A path takes fewer bytes than this. -/
def pathLimit : Nat := 4096

/-- The place that steps lead to. Each step must start in a directory. -/
def walk (fs : FileSystem) : List String → List String → Except FileFault (List String)
  | place, [] => .ok place
  | place, step :: rest =>
    match fs.root.at? place with
    | some (.directory entries) =>
      if step = "." then fs.walk place rest
      else if step = ".." then fs.walk place.dropLast rest
      else if nameLimit < step.utf8ByteSize then .error .nameTooLong
      else if (entries.lookup step).isSome then fs.walk (place ++ [step]) rest
      else .error .notFound
    | some (.file _) => .error .notADirectory
    | none => .error .notFound

/-- The place where a path starts. -/
def start (fs : FileSystem) (path : Path) : List String :=
  if path.isAbsolute then [] else fs.workingDirectory

/-- The fault of a path that leads nowhere whatever the file system holds. -/
def checkPath (path : Path) : Except FileFault Unit :=
  if path.text.isEmpty then .error .notFound
  else if path.hasNul then .error .nulInName
  else if pathLimit ≤ path.text.utf8ByteSize then .error .nameTooLong
  else .ok ()

/-- **The place that a path leads to.** A slash at the end asks for a directory. -/
def locate (fs : FileSystem) (path : Path) : Except FileFault (List String) := do
  checkPath path
  fs.walk (fs.start path) (path.steps ++ if path.endsWithSlash then ["."] else [])

/-- **What stands where a path leads.** -/
def look (fs : FileSystem) (path : Path) : Except FileFault FileTree := do
  let place ← fs.locate path
  match fs.root.at? place with
  | some tree => .ok tree
  | none => .error .notFound

/-- The file system with something put in a place. -/
def put (fs : FileSystem) (place : List String) (tree : FileTree) : FileSystem :=
  { fs with root := fs.root.put tree place }

/-- The directory that all steps but the last lead to, its entries, and the last step. -/
def parentOf (fs : FileSystem) (path : Path) :
    Except FileFault (List String × List (String × FileTree) × String) := do
  checkPath path
  let place ← fs.walk (fs.start path) path.steps.dropLast
  match fs.root.at? place, path.steps.getLast? with
  | some (.directory entries), some name => .ok (place, entries, name)
  | some (.directory entries), none => .ok (place, entries, ".")
  | some (.file _), _ => .error .notADirectory
  | none, _ => .error .notFound

/-- Whether a step names no entry but the place itself or the one above. -/
def isTurn (step : String) : Bool :=
  step == "." || step == ".."

/-- **A file written,** in place of the one that has the path. -/
def write (fs : FileSystem) (path : Path) (content : ByteArray) : Except FileFault FileSystem := do
  let (place, entries, name) ← fs.parentOf path
  -- A slash at the end asks for a directory, which cannot be written.
  if isTurn name || path.endsWithSlash then throw .isADirectory
  if nameLimit < name.utf8ByteSize then throw .nameTooLong
  match entries.lookup name with
  | some (.directory _) => throw .isADirectory
  | _ => return fs.put (place ++ [name]) (.file content)

/-- **A directory made** in one that exists. -/
def makeDirectory (fs : FileSystem) (path : Path) : Except FileFault FileSystem := do
  let (place, entries, name) ← fs.parentOf path
  if isTurn name then throw .alreadyExists
  if nameLimit < name.utf8ByteSize then throw .nameTooLong
  if (entries.lookup name).isSome then throw .alreadyExists
  return fs.put (place ++ [name]) (.directory [])

/-- Whether a path leads to a directory. -/
def hasDirectory (fs : FileSystem) (path : Path) : Bool :=
  match fs.look path with
  | .ok tree => tree.isDirectory
  | .error _ => false

end FileSystem

end Scoresheet
