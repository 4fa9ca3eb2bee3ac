import Scoresheet.Files.System
import Scoresheet.Iteration
import Scoresheet.Timestamp
import Scoresheet.Uuid

/-!
# The machine that commands run on

Commands read and write files, look up variables of the environment, and take the time. They ask a
host for it, which is the real machine or a world that is given as a value.

* `Host` — what commands ask for.
* `World` — files, variables and a point in time, as a value.
-/

namespace Scoresheet

/-- What commands ask of the machine that they run on. -/
class Host (m : Type → Type) where
  /-- What stands where a path leads, with all that is below it. -/
  look : Path → m (Except FileFault FileTree)
  /-- Whether a path leads to a directory. -/
  isDirectory : Path → m Bool
  /-- A file written, in place of the one that has the path. -/
  write : Path → ByteArray → m (Except FileFault Unit)
  /-- A directory made in one that exists. -/
  makeDirectory : Path → m (Except FileFault Unit)
  /-- The value of a variable of the environment. -/
  environmentValue? : String → m (Option String)
  /-- The point in time. -/
  now : m Timestamp
  /-- An identifier that was never given out before. -/
  freshId : m Uuid
  /-- Milliseconds on a clock that is never set back. -/
  milliseconds : m Nat
  /-- A step taken again and again until it gives a result. It is not said that one ever comes: on
  the real machine a step that gives none is taken forever, and there is then no answer at all. -/
  iterate {α β : Type} : (α → m (α ⊕ β)) → α → m (Option β)

/-- A step that may fail, as one that cannot. To fail is a result. -/
def failingStep {ε α β : Type} {m : Type → Type} [Monad m] (step : α → ExceptT ε m (α ⊕ β))
    (a : α) : m (α ⊕ Except ε β) := do
  match ← (step a).run with
  | .ok (.inl next) => return .inl next
  | .ok (.inr result) => return .inr (.ok result)
  | .error e => return .inr (.error e)

/-- A computation that may fail asks its host as one that cannot. -/
instance {ε : Type} {m : Type → Type} [Monad m] [Host m] : Host (ExceptT ε m) where
  look path := ExceptT.lift (Host.look path)
  isDirectory path := ExceptT.lift (Host.isDirectory path)
  write path content := ExceptT.lift (Host.write path content)
  makeDirectory path := ExceptT.lift (Host.makeDirectory path)
  environmentValue? name := ExceptT.lift (Host.environmentValue? name)
  now := ExceptT.lift Host.now
  freshId := ExceptT.lift Host.freshId
  milliseconds := ExceptT.lift Host.milliseconds
  iterate step a := ExceptT.mk do
    return (← Host.iterate (failingStep step) a).elim (.ok none) (Except.map some)

/-- A machine as a value. Its clock stands still. -/
structure World where
  files : FileSystem
  environment : List (String × String)
  now : Timestamp
  nextId : Uuid

namespace World

/-- The value of a variable. -/
def environmentValue? (world : World) (name : String) : Option String :=
  world.environment.lookup name

/-- A world with a file written. -/
def write (path : Path) (content : ByteArray) (world : World) : Except FileFault Unit × World :=
  match world.files.write path content with
  | .ok files => (.ok (), { world with files })
  | .error fault => (.error fault, world)

/-- A world with a directory made. -/
def makeDirectory (path : Path) (world : World) : Except FileFault Unit × World :=
  match world.files.makeDirectory path with
  | .ok files => (.ok (), { world with files })
  | .error fault => (.error fault, world)

instance : Host (StateM World) where
  look path := fun world => (world.files.look path, world)
  isDirectory path := fun world => (world.files.hasDirectory path, world)
  write := write
  makeDirectory := makeDirectory
  environmentValue? name := fun world => (world.environmentValue? name, world)
  now := fun world => (world.now, world)
  freshId := fun world => (world.nextId, world)
  milliseconds := pure 0
  iterate step a := fun world =>
    (Iteration.iterate step (a, world)).1.elim (none, world) fun r => (some r.1, r.2)

end World

namespace Host

variable {m : Type → Type} [Monad m] [Host m]

/-- The text of the file that a path leads to. -/
def readText (path : Path) : m (Except FileFault String) := do
  return (← look path).bind FileTree.readText

/-- Whether something stands where a path leads. -/
def hasFile (path : Path) : m Bool := do
  return (← look path).isOk

/-- A directory made unless there is one. -/
def ensureDirectory (path : Path) : m (Except FileFault Unit) := do
  match ← makeDirectory path with
  | .ok () => return .ok ()
  | .error fault => if ← isDirectory path then return .ok () else return .error fault

/-- A directory made, with those that lead to it, which are given with the last one first. They are
made only if one is missing. -/
def ensureWithin (path : Path) : List Path → m (Except FileFault Unit)
  | [] => ensureDirectory path
  | parent :: ancestors => do
    match ← ensureDirectory path with
    -- Only a missing parent is worth a second attempt.
    | .error .notFound =>
      match ← ensureWithin parent ancestors with
      | .ok () => ensureDirectory path
      | failed => return failed
    | result => return result

/-- **A directory made, with those that lead to it.** The empty path asks for nothing. -/
def makeDirectories (path : Path) : m (Except FileFault Unit) :=
  if path.text.isEmpty then return .ok () else ensureWithin path path.ancestors

end Host

end Scoresheet
