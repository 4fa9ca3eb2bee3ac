import Scoresheet.Json.Node

/-!
# Decoding

A decoder makes a domain value of a node. A record is written as an object, where unknown members
are passed over, or as an array of its fields in order. Its fields are decoded independently of one
another, and of all faults found the one that stands first in the text is reported, which is the one
that a single pass over the text would meet.

* `Decoder` — from nodes to values of a type.
* `Record`, `Record.field` — the fields of a record by name.
* `decode` — from a text to a value, nothing but blanks after it.
-/

namespace Scoresheet.Json

/-- Where a node comes from, as far as that decides which fault is seen. -/
structure Origin where
  /-- What an array with more items than the record has fields is; nothing where the rest does not
  matter. -/
  excess : Option FaultKind
  /-- What a value is that stands where a word is due and is neither text nor object. -/
  noWord : FaultKind
  /-- Whether nothing is written as null, as an empty object, as an empty array. -/
  nullIsNothing : Bool
  emptyObjectIsNothing : Bool
  emptyArrayIsNothing : Bool

/-- A node read from a text as it is decoded. -/
def Origin.text : Origin where
  excess := some .malformed
  noWord := .malformed
  nullIsNothing := true
  emptyObjectIsNothing := false
  emptyArrayIsNothing := false

/-- A node that stands for a value. -/
def Origin.value : Origin where
  excess := some .shape
  noWord := .shape
  nullIsNothing := true
  emptyObjectIsNothing := false
  emptyArrayIsNothing := false

/-- A node that was read whole before it was known what it is. -/
def Origin.buffered : Origin where
  excess := some .shape
  noWord := .shape
  nullIsNothing := true
  emptyObjectIsNothing := true
  emptyArrayIsNothing := false

/-- A node that stands for a value of another format, which has no null and in which an array may be
longer. -/
def Origin.foreign : Origin where
  excess := none
  noWord := .shape
  nullIsNothing := false
  emptyObjectIsNothing := true
  emptyArrayIsNothing := true

/-- The fault of an array or object that does not end, if it does not. -/
def Close.fault? : Close → Option Fault
  | .closed _ | .unbracketed => none
  | .cut fault => some fault

/-- Whether a node stands for nothing. -/
def Origin.isNothing (origin : Origin) : Node → Bool
  | .null _ => origin.nullIsNothing
  | .object _ _ [] close => origin.emptyObjectIsNothing && close.fault?.isNone
  | .array _ _ [] close => origin.emptyArrayIsNothing && close.fault?.isNone
  | _ => false

/-- From nodes to values of a type. -/
abbrev Decoder (α : Type) := Origin → Node → Except Fault α

/-! ### Faults of a node -/

/-- The node is not of the shape that is wanted. -/
def Node.refuse {α : Type} (node : Node) : Except Fault α :=
  .error (node.refusal .shape)

/-- The position at which an array or object ends. -/
def Close.position : Close → Nat
  | .closed position => position
  | .cut fault => fault.position
  | .unbracketed => 0

/-- That an array or object ends. -/
def Close.check (close : Close) : Except Fault Unit :=
  match close.fault? with
  | none => .ok ()
  | some fault => .error fault

mutual

/-- The fault that a reader meets who passes the node over. -/
def Node.pass : Node → Except Fault Unit
  | .array _ _ items close => do passItems items; close.check
  | .object _ _ members close => do passMembers members; close.check
  | .broken _ passed _ => .error passed
  | _ => .ok ()

/-- The first fault in passing over the items of an array. -/
def passItems : List Node → Except Fault Unit
  | [] => .ok ()
  | node :: rest => do node.pass; passItems rest

/-- The first fault in passing over the members of an object. -/
def passMembers : List (Key × Node) → Except Fault Unit
  | [] => .ok ()
  | (_, node) :: rest => do node.pass; passMembers rest

end

/-- Arrays and objects stand at most this deep in one another in a value that is read whole. -/
def depthLimit : Nat := 127

mutual

/-- **A node as a value,** read whole: every scalar must have a value, every key a text, and the
nesting is limited. Members stay in the order of the text. -/
def Node.toValue : Node → Except Fault Value
  | .null _ => .ok .null
  | .bool _ b => .ok (.bool b)
  | .int _ n => .ok (.int n)
  | .float _ x => .ok (.float x)
  | .string _ s => .ok (.string s)
  | .array position depth items close => do
    if depthLimit < depth then throw ⟨.malformed, position⟩
    let values ← itemValues items
    close.check
    return .array values
  | .object position depth members close => do
    if depthLimit < depth then throw ⟨.malformed, position⟩
    let values ← memberValues members
    close.check
    return .object values
  | .unreadable fault | .broken fault .. => .error fault

/-- The items of an array as values. -/
def itemValues : List Node → Except Fault (List Value)
  | [] => .ok []
  | node :: rest => do
    let v ← node.toValue
    return v :: (← itemValues rest)

/-- The members of an object as values. -/
def memberValues : List (Key × Node) → Except Fault (List (String × Value))
  | [] => .ok []
  | (key, node) :: rest => do
    let text ← key.text
    let v ← node.toValue
    return (text, v) :: (← memberValues rest)

end

/-! ### Values as nodes -/

mutual

/-- The node that stands for a value. Positions number the parts of the value in order, from
`position` on; the first number that is left free is returned too. -/
def nodeFrom (position : Nat) : Value → Node × Nat
  | .null => (.null position, position + 1)
  | .bool b => (.bool position b, position + 1)
  | .int n => (.int position n, position + 1)
  | .float x => (if x.isFinite then .float position x else .null position, position + 1)
  | .string s => (.string position s, position + 1)
  | .array items =>
    let (nodes, next) := itemNodes (position + 1) items
    (.array position 0 nodes (.closed next), next + 1)
  | .object members =>
    let (nodes, next) := memberNodes (position + 1) members
    -- The object has a position for its start and one for its end.
    (.object position 0 nodes (.closed next), next + 1)

/-- The nodes of the items of an array. -/
def itemNodes (position : Nat) : List Value → List Node × Nat
  | [] => ([], position)
  | v :: rest =>
    let (node, next) := nodeFrom position v
    let (nodes, last) := itemNodes next rest
    (node :: nodes, last)

/-- The nodes of the members of an object. -/
def memberNodes (position : Nat) : List (String × Value) → List (Key × Node) × Nat
  | [] => ([], position)
  | (key, v) :: rest =>
    let (node, next) := nodeFrom (position + 1) v
    let (nodes, last) := memberNodes next rest
    ((.ofText position key, node) :: nodes, last)

end

/-- The node that stands for a value. -/
def Value.toNode (v : Value) : Node :=
  (nodeFrom 0 v).1

/-! ### The first of several faults -/

/-- A function and its argument, decoded independently. Of two faults the one that stands first in
the text counts. -/
def applyFirst {α β : Type} (f : Except Fault (α → β)) (a : Except Fault α) : Except Fault β :=
  match f, a with
  | .ok f, .ok a => .ok (f a)
  | .error e, .ok _ => .error e
  | .ok _, .error e => .error e
  -- At one position the fault of the earlier field counts.
  | .error e, .error e' => .error (if e'.position < e.position then e' else e)

/-! ### Scalars and lists -/

namespace Decoder

/-- A text. -/
def string : Decoder String
  | _, .string _ s => .ok s
  | _, node => node.refuse

/-- A truth value. -/
def bool : Decoder Bool
  | _, .bool _ b => .ok b
  | _, node => node.refuse

/-- A float; an integer stands for the float nearest to it. -/
def float : Decoder Float
  | _, .float _ x => .ok x
  | _, .int _ n => .ok (Float.ofInt n)
  | _, node => node.refuse

/-- An integer in a range. -/
def intWithin (least greatest : Int) : Decoder Int
  | _, .int position n =>
    if least ≤ n ∧ n ≤ greatest then .ok n else .error ⟨.shape, position⟩
  | _, node => node.refuse

/-- An identifier: a signed integer of 64 bits. -/
def identifier : Decoder Int64 := fun origin node =>
  (intWithin (-9223372036854775808) 9223372036854775807 origin node).map Int64.ofInt

/-- A count: an unsigned integer of 64 bits. -/
def count : Decoder Nat := fun origin node =>
  (intWithin 0 18446744073709551615 origin node).map Int.toNat

/-- A value or nothing. -/
def optional {α : Type} (decoder : Decoder α) : Decoder (Option α)
  | _, .null _ => .ok none
  | origin, node => (decoder origin node).map some

/-- The value that a text stands for, where not every text stands for one. -/
def ofText {α : Type} (parse : String → Option α) : Decoder α
  | _, .string position s =>
    match parse s with
    | some a => .ok a
    | none => .error ⟨.shape, position⟩
  | _, node => node.refuse

/-- One of a set of words; an object with the word as its only key and nothing as its value stands
for the word too. Where there is no bracket to be read up to, only the first key is looked at. -/
def word {α : Type} (parse : String → Option α) : Decoder α
  | _, .string position s =>
    match parse s with
    | some a => .ok a
    | none => .error ⟨.shape, position⟩
  | origin, .object _ _ members close =>
    match members with
    | [] => do
      close.check
      throw ⟨origin.noWord, close.position⟩
    | (key, node) :: rest => do
      match parse (← key.word) with
      | none => throw ⟨.shape, key.position⟩
      | some a =>
        if origin.isNothing node then
          match rest, close with
          | _, .unbracketed | [], .closed _ => return a
          | [], .cut fault => throw fault
          -- The word must be the only member.
          | (next, _) :: _, _ => throw ⟨origin.noWord, next.position⟩
        else node.refuse
  | _, .broken _ _ fault => .error fault
  | origin, node => .error (node.refusal origin.noWord)

/-- The items of an array, each decoded in turn. -/
def items {α : Type} (decoder : Decoder α) (origin : Origin) : List Node → Except Fault (List α)
  | [] => .ok []
  | node :: rest => do
    let a ← decoder origin node
    return a :: (← items decoder origin rest)

/-- A list. -/
def list {α : Type} (decoder : Decoder α) : Decoder (List α)
  | origin, .array _ _ nodes close => do
    let values ← items decoder origin nodes
    close.check
    return values
  | _, node => node.refuse

/-- The members of an object, the keys and the values decoded in turn. -/
def members {κ α : Type} (key : Key → Except Fault κ) (decoder : Decoder α) (origin : Origin) :
    List (Key × Node) → Except Fault (List (κ × α))
  | [] => .ok []
  | (k, node) :: rest => do
    let k ← key k
    let a ← decoder origin node
    return (k, a) :: (← members key decoder origin rest)

/-- An object whose keys are data. -/
def table {κ α : Type} (key : Key → Except Fault κ) (decoder : Decoder α) :
    Decoder (List (κ × α))
  | origin, .object _ _ nodes close => do
    let entries ← members key decoder origin nodes
    close.check
    return entries
  | _, node => node.refuse

end Decoder

/-! ### Records -/

/-- The fields found for a record, and the first fault that is none of a field's own: a field given
twice, an unknown member that cannot be passed over, a record that does not end. -/
structure Record where
  origin : Origin
  fields : List (String × Node)
  fault? : Option Fault
  stop : Nat
  /-- Whether the fields were given by their places in an array. -/
  positional : Bool

namespace Record

/-- The record with a fault, unless it has one already. -/
def withFault (r : Record) (fault : Fault) : Record :=
  { r with fault? := r.fault?.or (some fault) }

/-- The fields that the members of an object give. Nothing is looked at after the first fault. -/
def ofMembers (names : List String) (r : Record) : List (Key × Node) → Record
  | [] => r
  | (key, node) :: rest =>
    match key.text with
    | .error fault => r.withFault fault
    | .ok text =>
      if names.contains text then
        if (r.fields.lookup text).isSome then r.withFault ⟨.shape, key.position⟩
        else ofMembers names { r with fields := r.fields ++ [(text, node)] } rest
      else
        match node.pass with
        | .ok _ => ofMembers names r rest
        | .error fault => r.withFault fault

/-- The fault of an array with more items than there are fields. -/
def excess? (origin : Origin) (names : List String) (items : List Node) : Option Fault := do
  let node ← items[names.length]?
  let kind ← origin.excess
  return ⟨kind, node.position⟩

/-- The record that a node holds, for the names of its fields in order. -/
def ofNode (names : List String) (origin : Origin) : Node → Except Fault Record
  | .array _ _ items close =>
    let fault? := (excess? origin names items).or close.fault?
    .ok ⟨origin, names.zip items, fault?, close.position, true⟩
  | .object _ _ members close =>
    let r := ofMembers names ⟨origin, [], none, close.position, false⟩ members
    .ok { r with fault? := r.fault?.or close.fault? }
  | node => node.refuse

/-- A field that must be there. -/
def field {α : Type} (r : Record) (name : String) (decoder : Decoder α) : Except Fault α :=
  match r.fields.lookup name with
  | some node => decoder r.origin node
  -- That a field is missing is known when the record has ended, after every other fault in it.
  | none => .error ⟨.shape, r.stop + 1⟩

/-- A field that has a value of its own where it is missing. -/
def fieldOr {α : Type} (r : Record) (name : String) (value : α) (decoder : Decoder α) :
    Except Fault α :=
  match r.fields.lookup name with
  | some node => decoder r.origin node
  | none => .ok value

/-- A field that may be nothing, and that may be left out of an object. An array of fields must have
an item in its place. -/
def fieldOptional {α : Type} (r : Record) (name : String) (decoder : Decoder α) :
    Except Fault (Option α) :=
  if r.positional then r.field name (Decoder.optional decoder)
  else r.fieldOr name none (Decoder.optional decoder)

/-- What the fields make, unless the record has a fault. Of its own fault and theirs the one that
stands first in the text counts. -/
def build {α : Type} (r : Record) (value : Except Fault α) : Except Fault α :=
  match r.fault?, value with
  | none, value => value
  | some fault, .ok _ => .error fault
  | some fault, .error own => .error (if fault.position < own.position then fault else own)

end Record

/-- **From a text to a value.** The value is decoded first; then nothing but blanks may follow. -/
def decode {α : Type} (decoder : Decoder α) (text : String) : Except Fault α := do
  let document := Document.parse text
  let a ← decoder .text document.node
  document.trailing
  return a

end Scoresheet.Json
