import Scoresheet.Host
import Scoresheet.Session.Loading

/-!
# Session files and directories

The extension of a file's name tells the format of its sessions. Of a directory all session files
count, those of its directories too, in the order of their names; a file that cannot be read as
sessions is passed over there.

* `SessionFormat.ofPath?` — the format of a file.
* `FileTree.sessions` — the sessions of a directory.
* `Session.load` — the sessions of a file or directory.
* `Session.LoadError` — why there are none.
-/

namespace Scoresheet

namespace SessionFormat

/-- The format of files with an extension. -/
def ofExtension? : String → Option SessionFormat
  | "json" => some .json
  | "toml" => some .toml
  | _ => none

/-- The format of the file that a path leads to. -/
def ofPath? (path : Path) : Option SessionFormat :=
  path.extension?.bind ofExtension?

/-- The format of a file with a name. -/
def ofName? (name : String) : Option SessionFormat :=
  (Path.nameExtension? name).bind ofExtension?

end SessionFormat

/-! ### Directories -/

/-- The sessions of a file in a directory, none if its name has no format or its content is not in
that format. -/
def fileSessions (name : String) (content : ByteArray) : List Session :=
  match SessionFormat.ofName? name, String.fromUTF8? content with
  | some format, some text => (Session.parse text format).toOption.getD []
  | _, _ => []

/-- What belongs to each name, put together in the order of the names. -/
def inNameOrder {α : Type} (parts : List (String × List α)) : List α :=
  (parts.mergeSort fun a b => a.1 ≤ b.1).flatMap Prod.snd

namespace FileTree

mutual

/-- **The sessions of a directory:** those of its session files and directories, in the order of
their names. -/
def sessions : FileTree → List Session
  | file _ => []
  | directory entries => inNameOrder (entrySessions entries)

/-- The sessions of each entry of a directory. -/
def entrySessions : List (String × FileTree) → List (String × List Session)
  | [] => []
  | (name, tree) :: rest =>
    let own := match tree with
      | file content => fileSessions name content
      | directory entries => inNameOrder (entrySessions entries)
    (name, own) :: entrySessions rest

end

end FileTree

/-! ### Files -/

namespace Session

/-- Why sessions cannot be loaded. -/
inductive LoadError where
  | unsupported (path : Path)
  | unreadable (path : Path) (fault : FileFault)
  | unparsable (path : Path) (fault : ReadFault)
  | notADirectory (path : Path)
deriving DecidableEq

/-- What is said of an error, from the outside in. -/
def LoadError.chain : LoadError → List String
  | unsupported path => ["unsupported session file type: " ++ path.text]
  | unreadable path fault => ["failed to read session file: " ++ path.text, fault.message]
  | unparsable path fault => ["failed to parse session file: " ++ path.text, fault.message]
  | notADirectory path => ["not a directory: " ++ path.text]

/-- The sessions of what stands at a path, taken as a file. -/
def ofFile (path : Path) (found : Except FileFault FileTree) : Except LoadError (List Session) :=
  match SessionFormat.ofPath? path with
  | none => .error (.unsupported path)
  | some format =>
    match found.bind FileTree.readText with
    | .error fault => .error (.unreadable path fault)
    | .ok text => (parse text format).mapError (LoadError.unparsable path)

/-- The sessions of what stands at a path, taken as a directory. -/
def ofDirectory (path : Path) : Except FileFault FileTree → Except LoadError (List Session)
  | .ok (.directory entries) => .ok (FileTree.directory entries).sessions
  | _ => .error (.notADirectory path)

/-- **The sessions of a file or directory.** -/
def ofFound (path : Path) (found : Except FileFault FileTree) : Except LoadError (List Session) :=
  match found with
  | .ok (.directory _) => ofDirectory path found
  | _ => ofFile path found

/-- The sessions where a path leads. -/
def load {m : Type → Type} [Monad m] [Host m] (path : Path) :
    ExceptT LoadError m (List Session) := do
  MonadExcept.ofExcept (ofFound path (← Host.look path))

end Session

end Scoresheet
