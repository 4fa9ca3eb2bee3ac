import Scoresheet.Command.Run
import Std.Time

/-!
# The program

The commands run on the real machine: its files, its environment, its clock.
-/

namespace Scoresheet

namespace Machine

/-- A fault as the system reports it. -/
def fileFault : IO.Error → FileFault
  | .noFileOrDirectory .. => .notFound
  | .alreadyExists .. => .alreadyExists
  | .inappropriateType _ code _ => if code = 21 then .isADirectory else .notADirectory
  | error => .other (toString error)

/-- The result of an action on a path, or the fault that the system reports. A path that the system
would cut short is not given to it. -/
def attempt {α : Type} (path : Path) (action : IO α) : IO (Except FileFault α) := do
  if path.hasNul then return .error .nulInName
  try return .ok (← action) catch error => return .error (fileFault error)

/-- The entries of a directory with all that is below them. What cannot be read is left out. -/
partial def readEntries (entries : Array IO.FS.DirEntry) : IO (List (String × FileTree)) := do
  let mut trees := #[]
  for entry in entries do
    try
      let tree ← if ← entry.path.isDir then
          FileTree.directory <$> readEntries (← entry.path.readDir)
        else FileTree.file <$> IO.FS.readBinFile entry.path
      trees := trees.push (entry.fileName, tree)
    catch _ => pure ()
  return trees.toList

/-- What stands where a path leads. -/
def look (path : Path) : IO FileTree := do
  let place ← IO.FS.realPath path.text
  if ← place.isDir then return .directory (← readEntries (← place.readDir))
  return .file (← IO.FS.readBinFile place)

/-- The point in time by the clock of the system. -/
def now : IO Timestamp := do
  let t ← Std.Time.Timestamp.now
  let moment? := Timestamp.ofNanoseconds? t.toNanosecondsSinceUnixEpoch.val
  return moment?.getD .epoch

/-- An identifier of random bits. -/
def freshId : IO Uuid := do
  let bytes ← IO.getRandomBytes 16
  return .random (BitVec.ofNat 128 (bytes.toList.foldl (fun n b => 256 * n + b.toNat) 0))

/-- A step taken until it gives a result. -/
partial def iterate {α β : Type} (step : α → IO (α ⊕ β)) (a : α) : IO β := do
  match ← step a with
  | .inl next => iterate step next
  | .inr result => return result

instance : Host IO where
  look path := attempt path (look path)
  isDirectory path := do
    return (← attempt path (do (← IO.FS.realPath path.text).isDir)).toOption.getD false
  write path content := attempt path (IO.FS.writeBinFile path.text content)
  makeDirectory path := attempt path (IO.FS.createDir path.text)
  environmentValue? name := IO.getEnv name
  now := now
  freshId := freshId
  milliseconds := IO.monoMsNow
  iterate step a := some <$> iterate step a

end Machine

end Scoresheet

/-- What the arguments ask for. -/
def main (arguments : List String) : IO UInt32 := do
  let t ← Scoresheet.Command.runArguments arguments
  t.messages.forM IO.eprintln
  t.output.forM IO.println
  return UInt32.ofNat t.exitCode
