import Scoresheet.Json.Decoder

/-!
# TOML values

A TOML document is a table. While it is read, its tables remember how they came to be, since a table
may be filled from one place only; afterwards they are plain values.

* `Value` — what a document means.
* `Table`, `Item` — a table while the document is read.
* `Table.define` — a key given a value in a table.
* `Table.descend` — the table at the end of a path.
* `Value.toNode` — a value as decoders read it.
-/

namespace Scoresheet.Toml

/-- A TOML value. -/
inductive Value where
  | string (s : String)
  | integer (n : Int)
  | float (x : Float)
  | boolean (b : Bool)
  /-- A date, a time or both, as it is written. -/
  | dateTime (text : String)
  | array (items : List Value)
  /-- A table, written in braces or by headers and dotted keys. -/
  | table (inBraces : Bool) (entries : List (String × Value))

mutual

/-- What a key of a table stands for while the document is read. -/
inductive Item where
  | value (v : Value)
  | table (t : Table)
  /-- The tables of an array, the latest first. -/
  | tables (latestFirst : List Table)

/-- A table while the document is read. It is implicit if only a path leads through it, and dotted
if that path is a dotted key. -/
inductive Table where
  | mk (implicit dotted : Bool) (entries : List (String × Item))

end

namespace Table

/-- A table without entries that a header names. -/
def empty : Table := .mk false false []

/-- Whether only a path leads through the table. -/
def implicit : Table → Bool
  | .mk implicit _ _ => implicit

/-- Whether the table comes from a dotted key. -/
def dotted : Table → Bool
  | .mk _ dotted _ => dotted

/-- The entries of a table. -/
def entries : Table → List (String × Item)
  | .mk _ _ entries => entries

/-- What a key stands for. -/
def find? (t : Table) (key : String) : Option Item :=
  t.entries.lookup key

/-- The table without a key. -/
def erase (t : Table) (key : String) : Table :=
  .mk t.implicit t.dotted (t.entries.filter fun entry => entry.1 != key)

/-- Entries with a key standing for an item: in its place if it has one, else at the end. -/
def setEntry (key : String) (item : Item) : List (String × Item) → List (String × Item)
  | [] => [(key, item)]
  | entry :: rest =>
    if entry.1 = key then (key, item) :: rest else entry :: setEntry key item rest

/-- The table with a key standing for an item. -/
def set (t : Table) (key : String) (item : Item) : Table :=
  .mk t.implicit t.dotted (setEntry key item t.entries)

/-- **The table at the end of a path,** changed. Tables on the way that are missing are made; of an
array of tables the latest is meant. A dotted key leads through no table that a header names, and
nothing leads through a value. -/
def descend (viaKey : Bool) (change : Table → Option Table) : List String → Table → Option Table
  | [], t => change t
  | key :: path, t =>
    match t.find? key with
    | none => (descend viaKey change path (.mk true viaKey [])).map fun child =>
        t.set key (.table child)
    | some (.value _) => none
    -- No array of tables is ever empty: its first table came with it.
    | some (.tables []) => none
    | some (.tables (latest :: earlier)) =>
      (descend viaKey change path latest).map fun latest => t.set key (.tables (latest :: earlier))
    | some (.table child) =>
      if viaKey && !child.implicit then none
      else (descend viaKey change path child).map fun child => t.set key (.table child)

/-- **A key given a value.** The path in front of the key leads to a table of dotted keys; a key is
given once. -/
def define (path : List String) (key : String) (v : Value) (t : Table) : Option Table :=
  t.descend true (fun table =>
    -- Without a path the open table itself is meant, which must not come from a dotted key; with
    -- one, the table at its end must.
    if table.dotted == path.isEmpty || (table.find? key).isSome then none
    else some (table.set key (.value v))) path

end Table

mutual

/-- What an item of a table in braces, or of another, means. -/
def Item.toValue (inBraces : Bool) : Item → Value
  | .value v => v
  | .table t => t.toValue inBraces
  | .tables latestFirst => .array (tableValues inBraces latestFirst).reverse

/-- What a table means. Those that its dotted keys make are in its braces too. -/
def Table.toValue (inBraces : Bool) : Table → Value
  | .mk _ _ entries => .table inBraces (entryValues inBraces entries)

/-- What each of a list of tables means. -/
def tableValues (inBraces : Bool) : List Table → List Value
  | [] => []
  | t :: rest => t.toValue inBraces :: tableValues inBraces rest

/-- What the entries of a table mean. -/
def entryValues (inBraces : Bool) : List (String × Item) → List (String × Value)
  | [] => []
  | (key, item) :: rest => (key, item.toValue inBraces) :: entryValues inBraces rest

end

/-! ### Values as nodes -/

/-- The key under which a date appears to a decoder, which knows no dates. No record has a field of
this name. -/
def dateTimeKey : String := "date-time"

mutual

/-- A value as decoders read it. Positions do not matter, since every fault of a document counts the
same. -/
def Value.toNode : Value → Json.Node
  | .string s => .string 0 s
  | .integer n => .int 0 n
  | .float x => .float 0 x
  | .boolean b => .bool 0 b
  | .dateTime text => .object 0 0 [(.ofText 0 dateTimeKey, .string 0 text)] (.closed 0)
  | .array items => .array 0 0 (itemNodes items) (.closed 0)
  | .table inBraces entries =>
    .object 0 0 (entryNodes entries) (if inBraces then .closed 0 else .unbracketed)

/-- The items of an array as decoders read them. -/
def itemNodes : List Value → List Json.Node
  | [] => []
  | v :: rest => v.toNode :: itemNodes rest

/-- The entries of a table as decoders read them. -/
def entryNodes : List (String × Value) → List (Json.Key × Json.Node)
  | [] => []
  | (key, v) :: rest => (.ofText 0 key, v.toNode) :: entryNodes rest

end

end Scoresheet.Toml
