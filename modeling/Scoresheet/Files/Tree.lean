/-!
# File trees

A file holds bytes, and a directory holds files and directories by name.

* `FileTree` — a file or a directory.
* `FileTree.at?` — what the names on the way down lead to.
* `FileTree.put` — a tree with something in its place.
* `FileTree.files` — all files of a tree.
* `FileFault` — why a file cannot be read, or a file or directory not be made.
-/

namespace Scoresheet

/-- A file with its content, or a directory with its entries. The names in a directory differ from
one another, and they are texts: a name of bytes that are not UTF-8 has no place in a tree. -/
inductive FileTree where
  | file (content : ByteArray)
  | directory (entries : List (String × FileTree))

namespace FileTree

/-- Whether a tree is a directory. -/
def isDirectory : FileTree → Bool
  | file _ => false
  | directory _ => true

/-- The entries of a directory; a file has none. -/
def entries : FileTree → List (String × FileTree)
  | file _ => []
  | directory entries => entries

/-- What the names on the way down lead to. -/
def at? : FileTree → List String → Option FileTree
  | tree, [] => some tree
  | tree, name :: names => (tree.entries.lookup name).bind fun child => child.at? names

/-- Entries with a tree under a name, in place of the one that has the name. -/
def putEntry (name : String) (tree : FileTree) :
    List (String × FileTree) → List (String × FileTree)
  | [] => [(name, tree)]
  | entry :: rest =>
    if entry.1 = name then (name, tree) :: rest else entry :: putEntry name tree rest

/-- **A tree with another put where the names lead.** Directories that are missing on the way are
made; a file on the way gives place to one. -/
def put (tree : FileTree) (new : FileTree) : List String → FileTree
  | [] => new
  | name :: names =>
    let child := (tree.entries.lookup name).getD (directory [])
    directory (putEntry name (child.put new names) tree.entries)

mutual

/-- All files of a tree, each with the names on the way to it. -/
def files : FileTree → List (List String × ByteArray)
  | file content => [([], content)]
  | directory entries => entryFiles entries

/-- All files of the entries of a directory. -/
def entryFiles : List (String × FileTree) → List (List String × ByteArray)
  | [] => []
  | (name, tree) :: rest =>
    tree.files.map (fun (names, content) => (name :: names, content)) ++ entryFiles rest

end

end FileTree

/-- Why a file cannot be read, or a file or directory not be made. -/
inductive FileFault where
  | notFound
  | notADirectory
  | isADirectory
  | alreadyExists
  | nameTooLong
  /-- A name holds the character that ends names. -/
  | nulInName
  /-- The bytes of a file are no text. -/
  | notText
  /-- Another fault that a system reports. -/
  | other (message : String)
deriving DecidableEq

/-- The wording of a fault. -/
def FileFault.message : FileFault → String
  | notFound => "No such file or directory (os error 2)"
  | notADirectory => "Not a directory (os error 20)"
  | isADirectory => "Is a directory (os error 21)"
  | alreadyExists => "File exists (os error 17)"
  | nameTooLong => "File name too long (os error 36)"
  | nulInName => "file name contained an unexpected NUL byte"
  | notText => "stream did not contain valid UTF-8"
  | other message => message

/-- The text of a file. -/
def FileTree.readText : FileTree → Except FileFault String
  | file content =>
    match String.fromUTF8? content with
    | some text => .ok text
    | none => .error .notText
  | directory _ => .error .isADirectory

end Scoresheet
