import Scoresheet.Json.Value
import Scoresheet.Decimal.Reading

/-!
# JSON texts as they are read

A text is read into a tree that goes as far as the text is well-formed and says where it stops being
so. What a reader of the tree asks for decides which fault it meets first, so every node carries its
position, and the faults that only some readers mind are kept in the tree too: a number beyond all
floats or half of a surrogate pair spoils a value that is wanted, not one that is passed over. A key
is read as a text by most readers, but some take it for a number or for a value.

* `Fault` — what is wrong, and where.
* `Node` — a text as far as it is well-formed.
* `Document.parse` — the tree of a text, and what follows it.
-/

namespace Scoresheet.Json

/-- The class of a fault. -/
inductive FaultKind where
  /-- The text breaks the grammar. -/
  | malformed
  /-- The text ends too early. -/
  | truncated
  /-- The text is well-formed, but not of the shape that is wanted. -/
  | shape
deriving Repr, DecidableEq

/-- A fault and its position, counted in characters. -/
structure Fault where
  kind : FaultKind
  position : Nat
deriving Repr, DecidableEq

/-- The wording of a fault. -/
def Fault.message (fault : Fault) : String :=
  let what := match fault.kind with
    | .malformed => "malformed JSON"
    | .truncated => "the JSON text ends early"
    | .shape => "a JSON value of another shape is wanted"
  what ++ " at character " ++ toString fault.position

/-- How an array or object ends. -/
inductive Close where
  /-- At its bracket, which has the position given. -/
  | closed (position : Nat)
  /-- Not at all: the text breaks off or goes wrong before the bracket. -/
  | cut (fault : Fault)
  /-- Without a bracket: a table whose members may stand in several places. -/
  | unbracketed
deriving Repr, DecidableEq

/-- The key of a member, or what stands in its place. It is kept as the readers see it who take it
for a key, for a value that is a text, and for an integer of 64 bits; each meets a fault of its
own. -/
structure Key where
  position : Nat
  text : Except Fault String
  word : Except Fault String
  integer : Except Fault Int

/-- A JSON text as far as it is well-formed. The depth of an array or object counts itself and those
around it. -/
inductive Node where
  | null (position : Nat)
  | bool (position : Nat) (b : Bool)
  | int (position : Nat) (n : Int)
  | float (position : Nat) (x : Float)
  | string (position : Nat) (s : String)
  | array (position depth : Nat) (items : List Node) (close : Close)
  | object (position depth : Nat) (members : List (Key × Node)) (close : Close)
  /-- A scalar that is well-formed but has no value. -/
  | unreadable (fault : Fault)
  /-- The text goes wrong here: what a reader meets who wants the value, what one meets who passes
  it over, and what one meets who wants a word of a set. -/
  | broken (wanted passed word : Fault)

/-- The position of a node. -/
def Node.position : Node → Nat
  | .null position | .bool position _ | .int position _ | .float position _ | .string position _
  | .array position .. | .object position .. => position
  | .unreadable fault | .broken fault .. => fault.position

/-- The fault of a node that is not what a reader wants. -/
def Node.refusal (kind : FaultKind) : Node → Fault
  | .unreadable fault | .broken fault .. => fault
  | node => ⟨kind, node.position⟩

/-- The rest of a text and its position. -/
structure Cursor where
  position : Nat
  rest : List Char

namespace Cursor

/-- The cursor `n` characters further on. -/
def advance (c : Cursor) (n : Nat) : Cursor :=
  ⟨c.position + n, c.rest.drop n⟩

/-- The fault that the text goes wrong at the cursor. -/
def malformed (c : Cursor) : Fault :=
  ⟨.malformed, c.position⟩

/-- The fault of meeting at the cursor something that cannot stand there, or nothing at all. -/
def unexpected (c : Cursor) : Fault :=
  match c.rest with
  | [] => ⟨.truncated, c.position⟩
  | _ :: _ => ⟨.malformed, c.position⟩

/-- Whether a character may stand between the lexemes of a JSON text. -/
def isSpace (c : Char) : Bool :=
  c = ' ' || c = '\n' || c = '\t' || c = '\r'

/-- The cursor at the next character that is no blank. -/
def skipSpace (c : Cursor) : Cursor :=
  ⟨c.position + (c.rest.takeWhile isSpace).length, c.rest.dropWhile isSpace⟩

end Cursor

/-- What is read at a cursor: a node, and where to go on, unless the text goes wrong in the node. -/
abbrev Parsed := Node × Except Fault Cursor

/-- The text goes wrong here, whoever reads it. -/
def failed (fault : Fault) : Parsed :=
  (.broken fault fault fault, .error fault)

/-- The text goes wrong in a value that is no string and starts at a position. A reader who wants a
word goes no further than that. -/
def failedFrom (start : Nat) (wanted passed : Fault) : Parsed :=
  (.broken wanted passed ⟨.malformed, start⟩, .error passed)

/-! ### Words and numbers -/

/-- The remaining letters of a word that denotes a node. -/
def parseWord (node : Node) : List Char → Cursor → Parsed
  | [], c => (node, .ok c)
  | letter :: letters, c =>
    match c.rest with
    | next :: _ =>
      if next = letter then parseWord node letters (c.advance 1)
      else failedFrom node.position c.malformed c.malformed
    | [] => failedFrom node.position c.unexpected c.unexpected

/-- The fault of a number that lacks a digit: at the end of the text a reader who passes the number
over sees a malformed number, one who wants it sees the text end. -/
def lacksDigit (start : Nat) (c : Cursor) : Parsed :=
  failedFrom start c.unexpected c.malformed

/-- The node of a number: integers of 64 bits, signed or not, are integers, all else is a float; a
negative zero is a float. The float is the nearest one to the number, however many digits the number
has; a reader that settles for fewer digits may end on a neighbour of it. -/
def numberNode (position : Nat) (negative integral : Bool) (digits : Nat) (exponent : Int) : Node :=
  if integral && !negative && digits < Nat.pow 2 64 then .int position digits
  -- No integer is a negative zero, but a float is.
  else if integral && negative && 0 < digits && digits ≤ Nat.pow 2 63 then
    .int position (-(digits : Int))
  else
    let x := Decimal.nearest digits exponent
    if x.isFinite then .float position (if negative then -x else x)
    else .unreadable ⟨.malformed, position⟩

/-- A number after its optional sign: an integral part without a needless zero, an optional
fraction, an optional exponent. -/
def parseNumber (position : Nat) (negative : Bool) (c : Cursor) : Parsed :=
  let (whole, rest) := Decimal.spanDigits c.rest
  if whole = [] then lacksDigit position c
  else if whole.head? = some '0' ∧ whole.length ≠ 1 then
    failedFrom position (c.advance 1).malformed (c.advance 1).malformed
  else
    let c : Cursor := ⟨c.position + whole.length, rest⟩
    let fractioned : Except Parsed (List Char × Bool × Cursor) :=
      match c.rest with
      | '.' :: tail =>
        let (fraction, rest) := Decimal.spanDigits tail
        if fraction = [] then .error (lacksDigit position (c.advance 1))
        else .ok (fraction, false, ⟨c.position + 1 + fraction.length, rest⟩)
      | _ => .ok ([], true, c)
    match fractioned with
    | .error parsed => parsed
    | .ok (fraction, integral, c) =>
      let digits := Decimal.digitsValue (whole ++ fraction)
      match c.rest with
      | mark :: tail =>
        if mark = 'e' ∨ mark = 'E' then
          let (minus, body) := Decimal.spanSign tail
          let (run, rest) := Decimal.spanDigits body
          -- The mark, and the sign if there is one.
          let width := 1 + (tail.length - body.length)
          if run = [] then lacksDigit position (c.advance width)
          else
            let n := Decimal.digitsValue run
            let e : Int := if minus then -(n : Int) else n
            (numberNode position negative false digits (e - fraction.length),
              .ok ⟨c.position + width + run.length, rest⟩)
        else (numberNode position negative integral digits (-fraction.length), .ok c)
      | [] => (numberNode position negative integral digits (-fraction.length), .ok c)

/-- A number from its sign on, if a number starts at the cursor. -/
def parseNumber? (c : Cursor) : Option Parsed :=
  match c.rest with
  | '-' :: _ => some (parseNumber c.position true (c.advance 1))
  | digit :: _ => if digit.isDigit then some (parseNumber c.position false c) else none
  | [] => none

/-! ### Strings -/

/-- The value of a hexadecimal digit. -/
def hexValue? (c : Char) : Option Nat :=
  if c.isDigit then some (c.toNat - '0'.toNat)
  else if 'a' ≤ c ∧ c ≤ 'f' then some (c.toNat - 'a'.toNat + 10)
  else if 'A' ≤ c ∧ c ≤ 'F' then some (c.toNat - 'A'.toNat + 10)
  else none

/-- The number that four hexadecimal digits at the head of a text denote. -/
def hexQuad? : List Char → Option Nat
  | a :: b :: c :: d :: _ => do
    return (((← hexValue? a) * 16 + (← hexValue? b)) * 16 + (← hexValue? c)) * 16 + (← hexValue? d)
  | _ => none

/-- The fault of an escape without its four hexadecimal digits. The text counts as ended where fewer
than four bytes are left. -/
def lacksHex (c : Cursor) : Fault :=
  if (c.rest.take 4).foldl (fun n d => n + d.utf8Size) 0 < 4 then ⟨.truncated, c.position⟩
  else c.malformed

/-- The character of an escape by a single letter. -/
def escape? : Char → Option Char
  | '"' => some '"'
  | '\\' => some '\\'
  | '/' => some '/'
  | 'b' => some (Char.ofNat 8)
  | 'f' => some (Char.ofNat 12)
  | 'n' => some '\n'
  | 'r' => some '\r'
  | 't' => some '\t'
  | _ => none

/-- What a string is found to be: its text or the fault that a reader of the text meets, and where
to go on or the fault that a reader meets who passes it over. -/
structure Scanned where
  text : Except Fault (List Char)
  next : Except Fault Cursor

/-- The text goes wrong here. A fault met before counts first for a reader of the text. -/
def Scanned.stop (text : Except Fault (List Char)) (fault : Fault) : Scanned :=
  ⟨text.bind fun _ => .error fault, .error fault⟩

/-- The code unit of an escape that must follow the first half of a surrogate pair. -/
def secondHalf (c : Cursor) : Except Fault Nat :=
  match c.rest with
  | '\\' :: 'u' :: digits =>
    match hexQuad? digits with
    | some n => if 0xDC00 ≤ n ∧ n ≤ 0xDFFF then .ok n else .error c.malformed
    | none => .error (lacksHex (c.advance 2))
  | '\\' :: [] | [] => .error ⟨.truncated, c.position⟩
  | _ => .error c.malformed

/-- The characters of a string up to its quote, the latest first in what has been read. -/
def scanString (read : Except Fault (List Char)) (position : Nat) :
    (fuel : Nat) → List Char → Scanned
  | 0, _ => .stop read ⟨.truncated, position⟩
  | _ + 1, [] => .stop read ⟨.truncated, position⟩
  | fuel + 1, c :: rest =>
    let here : Cursor := ⟨position, c :: rest⟩
    if c = '"' then ⟨read.map List.reverse, .ok ⟨position + 1, rest⟩⟩
    else if c = '\\' then
      match rest with
      | [] => .stop read ⟨.truncated, position + 1⟩
      | 'u' :: digits =>
        match hexQuad? digits with
        | none => .stop read (lacksHex ⟨position + 2, digits⟩)
        | some n =>
          -- A second half of a pair without the first.
          if 0xDC00 ≤ n ∧ n ≤ 0xDFFF then
            scanString (read.bind fun _ => .error here.malformed) (position + 6) fuel
              (digits.drop 4)
          -- A first half, which needs the second right after it.
          else if 0xD800 ≤ n ∧ n ≤ 0xDBFF then
            match secondHalf ⟨position + 6, digits.drop 4⟩ with
            | .ok m =>
              let c := Char.ofNat (0x10000 + (n - 0xD800) * 0x400 + (m - 0xDC00))
              scanString (read.map (c :: ·)) (position + 12) fuel (digits.drop 10)
            | .error fault =>
              scanString (read.bind fun _ => .error fault) (position + 6) fuel (digits.drop 4)
          else scanString (read.map (Char.ofNat n :: ·)) (position + 6) fuel (digits.drop 4)
      | letter :: rest =>
        match escape? letter with
        | some c => scanString (read.map (c :: ·)) (position + 2) fuel rest
        | none => .stop read ⟨.malformed, position + 1⟩
    else if c.toNat < 32 then .stop read here.malformed
    else scanString (read.map (c :: ·)) (position + 1) fuel rest

/-- The string after an opening quote. -/
def parseString (c : Cursor) : Scanned :=
  scanString (.ok []) c.position (c.rest.length + 1) c.rest

/-- The node of a string that starts at a position. -/
def stringNode (position : Nat) (scanned : Scanned) : Parsed :=
  match scanned.next, scanned.text with
  | .ok next, .ok text => (.string position (String.ofList text), .ok next)
  | .ok next, .error fault => (.unreadable fault, .ok next)
  | .error fault, .ok _ => failed fault
  | .error passed, .error wanted => (.broken wanted passed wanted, .error passed)

/-! ### Keys -/

/-- The integer of 64 bits that a key spells. The number starts at once, its digits stand as they
are, without escapes, and what is left of the text after it must be the end of the key. -/
def keyInteger (ends : List Char → Bool) (c : Cursor) : Except Fault Int :=
  match parseNumber? c with
  | none => .error c.malformed
  | some (.int position n, .ok next) =>
    if n < -9223372036854775808 ∨ 9223372036854775807 < n then .error ⟨.shape, position⟩
    else if ends next.rest then .ok n
    else .error next.malformed
  | some (node, _) => .error (node.refusal .shape)

/-- The key that a string at a cursor is. -/
def Key.ofScanned (c : Cursor) (scanned : Scanned) : Key :=
  let text := scanned.text.map String.ofList
  ⟨c.position, text, text, keyInteger (·.head? == some '"') (c.advance 1)⟩

/-- The key that a text is. -/
def Key.ofText (position : Nat) (text : String) : Key where
  position := position
  text := .ok text
  word := .ok text
  integer := (keyInteger List.isEmpty ⟨0, text.toList⟩).mapError fun fault => ⟨fault.kind, position⟩

/-- What stands in place of a key that has to come, when it is no string. A reader who takes it for
a value meets the fault of that value. -/
def Key.missing (c : Cursor) (node : Node) : Key :=
  ⟨c.position, .error c.unexpected, .error (node.refusal .shape), .error c.unexpected⟩

/-! ### Values -/

/-- A member with which the text goes wrong. -/
def lastMember (key : Key) (fault : Fault) :
    List (Key × Node) × Close × Except Fault Cursor :=
  ([(key, .broken fault fault fault)], .cut fault, .error fault)

mutual

/-- The value at a cursor, blanks before it skipped. `depth` counts the arrays and objects around
it. -/
def parseValue (depth : Nat) : (fuel : Nat) → Cursor → Parsed
  | 0, c => failed c.malformed
  | fuel + 1, c =>
    let c := c.skipSpace
    match c.rest with
    | 'n' :: _ => parseWord (.null c.position) ['u', 'l', 'l'] (c.advance 1)
    | 't' :: _ => parseWord (.bool c.position true) ['r', 'u', 'e'] (c.advance 1)
    | 'f' :: _ => parseWord (.bool c.position false) ['a', 'l', 's', 'e'] (c.advance 1)
    | '"' :: _ => stringNode c.position (parseString (c.advance 1))
    | '[' :: _ =>
      let (items, close, next) := parseItems (depth + 1) true fuel (c.advance 1)
      (.array c.position (depth + 1) items close, next)
    | '{' :: _ =>
      let (members, close, next) := parseMembers (depth + 1) true fuel (c.advance 1)
      (.object c.position (depth + 1) members close, next)
    | _ => (parseNumber? c).getD (failed c.unexpected)

/-- The items of an array up to its bracket. After a comma an item must follow. -/
def parseItems (depth : Nat) (first : Bool) :
    (fuel : Nat) → Cursor → List Node × Close × Except Fault Cursor
  | 0, c => ([], .cut c.malformed, .error c.malformed)
  | fuel + 1, c =>
    let c := c.skipSpace
    match c.rest with
    | ']' :: _ => ([], .closed c.position, .ok (c.advance 1))
    | [] => ([], .cut c.unexpected, .error c.unexpected)
    | next :: _ =>
      if next = ',' || first then
        match parseValue depth fuel (if first then c else c.advance 1) with
        | (node, .error fault) => ([node], .cut fault, .error fault)
        | (node, .ok after) =>
          let (items, close, next) := parseItems depth false fuel after
          (node :: items, close, next)
      else ([], .cut c.malformed, .error c.malformed)

/-- The members of an object up to its brace. After a comma a member must follow. -/
def parseMembers (depth : Nat) (first : Bool) :
    (fuel : Nat) → Cursor → List (Key × Node) × Close × Except Fault Cursor
  | 0, c => ([], .cut c.malformed, .error c.malformed)
  | fuel + 1, c =>
    let c := c.skipSpace
    match c.rest with
    | '}' :: _ => ([], .closed c.position, .ok (c.advance 1))
    | [] => ([], .cut c.unexpected, .error c.unexpected)
    | next :: _ =>
      if next = ',' || first then
        let c := if first then c else (c.advance 1).skipSpace
        match c.rest with
        | '"' :: _ =>
          let scanned := parseString (c.advance 1)
          -- A key without text stays: only a reader who wants the text minds.
          let key := Key.ofScanned c scanned
          match scanned.next with
          | .error fault => lastMember key fault
          | .ok colon =>
            let colon := colon.skipSpace
            match colon.rest with
            | ':' :: _ =>
              match parseValue depth fuel (colon.advance 1) with
              | (node, .error fault) => ([(key, node)], .cut fault, .error fault)
              | (node, .ok after) =>
                let (members, close, next) := parseMembers depth false fuel after
                ((key, node) :: members, close, next)
            | _ => lastMember key colon.unexpected
        | _ => lastMember (Key.missing c (parseValue depth fuel c).1) c.unexpected
      else ([], .cut c.malformed, .error c.malformed)

end

/-- The first value of a text and what is wrong after it, if anything is. -/
structure Document where
  node : Node
  trailing : Except Fault Unit

/-- **A text as it is read:** one value, and only blanks after it. -/
def Document.parse (text : String) : Document :=
  let chars := text.toList
  -- A value takes a step, and so does its place in what holds it; either has a character.
  match parseValue 0 (2 * chars.length + 2) ⟨0, chars⟩ with
  | (node, .error fault) => ⟨node, .error fault⟩
  | (node, .ok c) =>
    let c := c.skipSpace
    ⟨node, if c.rest = [] then .ok () else .error c.malformed⟩

end Scoresheet.Json
