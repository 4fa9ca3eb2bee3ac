import Scoresheet.Decimal.Reading
import Scoresheet.Timestamp
import Scoresheet.Toml.Value

/-!
# TOML documents

A document is read line by line: headers open tables, and keys are given values in the table that is
open. A reader takes what it reads off the head of a text, or refuses the text; why a document is
refused is not told.

* `readValue` — the value at the head of a text.
* `parse?` — the table that a document means.
-/

namespace Scoresheet.Toml

/-- A reader takes a result off the head of a text and leaves the rest. -/
abbrev Reader (α : Type) := List Char → Option (α × List Char)

/-! ### Blanks, comments, line ends -/

/-- Whether a character is a blank within a line. -/
def isSpace (c : Char) : Bool :=
  c = ' ' || c = '\t'

/-- A text without the blanks at its head. -/
def skipSpace (text : List Char) : List Char :=
  text.dropWhile isSpace

/-- Whether a character may stand in a comment or in a literal text: a tab, or no control. -/
def isPlain (c : Char) : Bool :=
  c = '\t' || 32 ≤ c.toNat && c.toNat ≠ 127

/-- A text after a line end, which is a line feed with or without a carriage return. -/
def lineEnd? : List Char → Option (List Char)
  | '\n' :: rest => some rest
  | '\r' :: '\n' :: rest => some rest
  | _ => none

/-- A text without a comment at its head. -/
def skipComment : List Char → List Char
  | '#' :: rest => rest.dropWhile isPlain
  | text => text

/-- A text after the blanks and the comment that may end a line, and the line end. -/
def endOfLine? (text : List Char) : Option (List Char) :=
  match skipComment (skipSpace text) with
  | [] => some []
  | rest => lineEnd? rest

/-- A text without blanks, comments and line ends at its head. -/
def skipLines : (fuel : Nat) → List Char → List Char
  | 0, text => text
  | fuel + 1, text =>
    let text := skipSpace text
    match text with
    | '#' :: _ => skipLines fuel (skipComment text)
    | _ =>
      match lineEnd? text with
      | some rest => skipLines fuel rest
      | none => text

/-- A text after a word that must be at its head. -/
def afterWord? : List Char → List Char → Option (List Char)
  | [], text => some text
  | c :: word, c' :: text => if c = c' then afterWord? word text else none
  | _ :: _, [] => none

/-! ### Strings -/

/-- The character of an escape by its code: so many hexadecimal digits that denote a character. -/
def codeEscape (digits : Nat) : Reader Char := fun text => do
  let run := text.take digits
  guard (run.length = digits)
  let code ← run.foldlM (fun n c => (Json.hexValue? c).map (16 * n + ·)) 0
  guard (code < 0xD800 ∨ 0xDFFF < code ∧ code < 0x110000)
  return (Char.ofNat code, text.drop digits)

/-- The character of an escape, after its backslash. -/
def readEscape : Reader Char
  | 'b' :: rest => some (Char.ofNat 8, rest)
  | 't' :: rest => some ('\t', rest)
  | 'n' :: rest => some ('\n', rest)
  | 'f' :: rest => some (Char.ofNat 12, rest)
  | 'r' :: rest => some ('\r', rest)
  | '"' :: rest => some ('"', rest)
  | '\\' :: rest => some ('\\', rest)
  | 'u' :: rest => codeEscape 4 rest
  | 'U' :: rest => codeEscape 8 rest
  | _ => none

/-- The characters of a string up to its quote, in one line, the latest first in what has been
read. -/
def basicString (read : List Char) : (fuel : Nat) → Reader String
  | 0, _ => none
  | _ + 1, [] => none
  | fuel + 1, c :: rest =>
    if c = '"' then some (String.ofList read.reverse, rest)
    else if c = '\\' then (readEscape rest).bind fun (c, rest) => basicString (c :: read) fuel rest
    else if isPlain c then basicString (c :: read) fuel rest
    else none

/-- The characters of a literal string up to its quote, in one line. -/
def literalString (text : List Char) : Option (String × List Char) :=
  let run := text.takeWhile fun c => isPlain c && c != '\''
  match text.drop run.length with
  | '\'' :: rest => some (String.ofList run, rest)
  | _ => none

/-- The quotes at the head of a text, when three or more: three end the string, and up to two before
them belong to it. -/
def closingQuotes? (quote : Char) (text : List Char) : Option (List Char × List Char) :=
  let run := text.takeWhile (· == quote)
  if run.length < 3 then none
  else
    -- Of six quotes and more, the first five belong to this string.
    let inside := min (run.length - 3) 2
    some (List.replicate inside quote, text.drop (inside + 3))

/-- Whether a backslash ends the line: only blanks stand between it and the line end. -/
def joinsLines? (text : List Char) : Option (List Char) :=
  lineEnd? (skipSpace text)

/-- A text without blanks and line ends at its head. -/
def skipBlankLines : (fuel : Nat) → List Char → List Char
  | 0, text => text
  | fuel + 1, text =>
    match lineEnd? (skipSpace text) with
    | some rest => skipBlankLines fuel rest
    | none => skipSpace text

/-- The characters of a string of several lines up to its three quotes. -/
def longString (read : List Char) : (fuel : Nat) → Reader String
  | 0, _ => none
  | fuel + 1, text =>
    match closingQuotes? '"' text with
    | some (inside, rest) => some (String.ofList (read.reverse ++ inside), rest)
    | none =>
      -- Every line end counts as a line feed.
      match lineEnd? text with
      | some rest => longString ('\n' :: read) fuel rest
      | none =>
        match text with
        | [] => none
        | '\\' :: rest =>
          match joinsLines? rest with
          | some rest => longString read fuel (skipBlankLines rest.length rest)
          | none => (readEscape rest).bind fun (c, rest) => longString (c :: read) fuel rest
        | c :: rest => if isPlain c then longString (c :: read) fuel rest else none

/-- The characters of a literal string of several lines up to its three quotes. -/
def longLiteral (read : List Char) : (fuel : Nat) → Reader String
  | 0, _ => none
  | fuel + 1, text =>
    match closingQuotes? '\'' text with
    | some (inside, rest) => some (String.ofList (read.reverse ++ inside), rest)
    | none =>
      match lineEnd? text with
      | some rest => longLiteral ('\n' :: read) fuel rest
      | none =>
        match text with
        | [] => none
        | c :: rest => if isPlain c then longLiteral (c :: read) fuel rest else none

/-- A string of either kind in one line. -/
def readLineString : Reader String
  | '"' :: rest => basicString [] (rest.length + 1) rest
  | '\'' :: rest => literalString rest
  | _ => none

/-- A string of any kind. A line end right after three opening quotes does not count. -/
def readString : Reader String
  | '"' :: '"' :: '"' :: rest => longString [] (rest.length + 1) ((lineEnd? rest).getD rest)
  | '\'' :: '\'' :: '\'' :: rest => longLiteral [] (rest.length + 1) ((lineEnd? rest).getD rest)
  | text => readLineString text

/-! ### Numbers -/

/-- Digits without the underscores between them. -/
def digitRun? (isDigit : Char → Bool) : List Char → Option (List Char)
  | [] => none
  | [c] => if isDigit c then some [c] else none
  | c :: '_' :: rest => if isDigit c then (digitRun? isDigit rest).map (c :: ·) else none
  | c :: rest => if isDigit c then (digitRun? isDigit rest).map (c :: ·) else none

/-- The number that digits in a base denote. -/
def inBase (base : Nat) (digits : List Char) : Option Nat :=
  digits.foldlM (fun n c => (Json.hexValue? c).map (base * n + ·)) 0

/-- The decimal digits of an integer: no zero stands before other digits. -/
def wholeDigits? (text : List Char) : Option (List Char) := do
  let digits ← digitRun? Char.isDigit text
  guard (digits.head? ≠ some '0' ∨ digits.length = 1)
  return digits

/-- The integer that a text denotes: decimal with a sign or without, or in another base. -/
def integer? (text : List Char) : Option Int := do
  let n : Int ← match text with
    | '0' :: 'x' :: rest => do
      let digits ← digitRun? (fun c => (Json.hexValue? c).isSome) rest
      (inBase 16 digits).map Int.ofNat
    | '0' :: 'o' :: rest => do
      let digits ← digitRun? (fun c => '0' ≤ c && c ≤ '7') rest
      (inBase 8 digits).map Int.ofNat
    | '0' :: 'b' :: rest => do
      let digits ← digitRun? (fun c => c = '0' || c = '1') rest
      (inBase 2 digits).map Int.ofNat
    | _ => do
      let (negative, body) := Decimal.spanSign text
      let n := Decimal.digitsValue (← wholeDigits? body)
      some (if negative then -(n : Int) else n)
  -- An integer has 64 bits, one of them for the sign.
  guard (-9223372036854775808 ≤ n ∧ n ≤ 9223372036854775807)
  return n

/-- The exponent of a float, after its mark. -/
def floatExponent? (text : List Char) : Option Int := do
  let (negative, body) := Decimal.spanSign text
  let n := Decimal.digitsValue (← digitRun? Char.isDigit body)
  return if negative then -(n : Int) else n

/-- Whether a character marks an exponent. -/
def isExponentMark (c : Char) : Bool :=
  c = 'e' || c = 'E'

/-- The float that a text denotes. None is too great, but one below the range is negative infinity;
the words for infinity and not-a-number are floats too. -/
def float? (text : List Char) : Option Float := do
  let (negative, body) := Decimal.spanSign text
  let x ← match body with
    | ['i', 'n', 'f'] => some (1.0 / 0.0)
    | ['n', 'a', 'n'] => some (0.0 / 0.0)
    | _ => do
      let mantissa := body.takeWhile fun c => !isExponentMark c
      let exponentText := body.drop mantissa.length
      let whole ← wholeDigits? (mantissa.takeWhile (· != '.'))
      let fraction ← match mantissa.dropWhile (· != '.') with
        -- Without a point there is an exponent, or the text is an integer.
        | [] => if exponentText = [] then none else some []
        | _ :: rest => digitRun? Char.isDigit rest
      let exponent ← match exponentText with
        | [] => some 0
        | _ :: rest => floatExponent? rest
      let digits := Decimal.digitsValue (whole ++ fraction)
      let x := Decimal.nearest digits (exponent - fraction.length)
      guard (x.isFinite = true ∨ negative = true)
      some x
  return if negative then -x else x

/-- Whether a character may stand in a number or a word. -/
def isNumberPart (c : Char) : Bool :=
  c.isAlphanum || c = '_' || c = '+' || c = '-' || c = '.'

/-- A number at the head of a text. -/
def readNumber (text : List Char) : Option (Value × List Char) :=
  let run := text.takeWhile isNumberPart
  let rest := text.drop run.length
  match integer? run with
  | some n => some (.integer n, rest)
  | none => (float? run).map fun x => (.float x, rest)

/-! ### Dates and times -/

/-- So many digits at the head of a text, as a number. -/
def fixedDigits (n : Nat) : Reader Nat := fun text =>
  let run := text.take n
  if run.length = n ∧ run.all Char.isDigit then some (Decimal.digitsValue run, text.drop n)
  else none

/-- A calendar date. -/
def readDate : Reader Unit := fun text => do
  let (year, text) ← fixedDigits 4 text
  let (month, text) ← fixedDigits 2 (← afterWord? ['-'] text)
  let (day, text) ← fixedDigits 2 (← afterWord? ['-'] text)
  guard (1 ≤ month ∧ month ≤ 12 ∧ 1 ≤ day ∧ day ≤ daysInMonth year month)
  return ((), text)

/-- A time of day. -/
def readTime : Reader Unit := fun text => do
  let (hour, text) ← fixedDigits 2 text
  let (minute, text) ← fixedDigits 2 (← afterWord? [':'] text)
  let (second, text) ← fixedDigits 2 (← afterWord? [':'] text)
  guard (hour < 24 ∧ minute < 60 ∧ second ≤ 60)
  match text with
  | '.' :: rest =>
    let (run, rest) := Decimal.spanDigits rest
    guard (run ≠ [])
    return ((), rest)
  | _ => return ((), text)

/-- An offset from UTC, which may be missing. -/
def readOffset : Reader Unit
  | 'Z' :: rest | 'z' :: rest => some ((), rest)
  | '+' :: rest | '-' :: rest => do
    let (hours, rest) ← fixedDigits 2 rest
    let (minutes, rest) ← fixedDigits 2 (← afterWord? [':'] rest)
    guard (hours < 24 ∧ minutes < 60)
    return ((), rest)
  | text => some ((), text)

/-- A date, a time, or both with an offset or without. -/
def readDateTime : Reader Value := fun text => do
  let (_, rest) ← match readDate text with
    | some (_, rest) =>
      match rest with
      | 'T' :: time | 't' :: time => do
        let (_, rest) ← readTime time
        readOffset rest
      -- A blank stands for the letter only where a time follows.
      | ' ' :: digit :: _ =>
        if digit.isDigit then do
          let (_, rest) ← readTime (rest.drop 1)
          readOffset rest
        else some ((), rest)
      | _ => some ((), rest)
    | none => readTime text
  return (.dateTime (String.ofList (text.take (text.length - rest.length))), rest)

/-! ### Keys -/

/-- Whether a key without quotes may hold a character. -/
def isBareKey (c : Char) : Bool :=
  c.isAlphanum || c = '_' || c = '-'

/-- A key without dots. -/
def readSimpleKey (text : List Char) : Option (String × List Char) :=
  match text with
  | '"' :: _ | '\'' :: _ => readLineString text
  | _ =>
    let run := text.takeWhile isBareKey
    if run = [] then none else some (String.ofList run, text.drop run.length)

/-- The parts of a key, divided by dots. -/
def readKeyParts : (fuel : Nat) → Reader (List String)
  | 0, _ => none
  | fuel + 1, text => do
    let (part, rest) ← readSimpleKey (skipSpace text)
    match skipSpace rest with
    | '.' :: rest => do
      let (parts, rest) ← readKeyParts fuel rest
      return (part :: parts, rest)
    | rest => return ([part], rest)

/-- Arrays, tables in braces and the parts of a key stand at most this deep in one another. -/
def depthLimit : Nat := 79

/-- **A key,** of not too many parts. -/
def readKey (text : List Char) : Option (List String × List Char) := do
  let (parts, rest) ← readKeyParts (text.length + 1) text
  guard (parts.length ≤ depthLimit)
  return (parts, rest)

/-- A key up to its equals sign, divided into the path and the last part. -/
def readKeyEquals (text : List Char) : Option ((List String × String) × List Char) := do
  let (parts, rest) ← readKey text
  let key ← parts.getLast?
  match rest with
  | '=' :: rest => return ((parts.dropLast, key), skipSpace rest)
  | _ => none

/-! ### Values -/

/-- Whether a text starts like a date or a time. -/
def startsDateTime (text : List Char) : Bool :=
  let digits := text.takeWhile Char.isDigit
  digits.length = 4 && text[4]? == some '-' || digits.length = 2 && text[2]? == some ':'

mutual

/-- **The value at the head of a text.** -/
def readValue (depth : Nat) : (fuel : Nat) → Reader Value
  | 0, _ => none
  | fuel + 1, text =>
    match text with
    | '"' :: _ | '\'' :: _ => (readString text).map fun (s, rest) => (.string s, rest)
    | '[' :: rest =>
      if depthLimit ≤ depth then none
      else (readItems (depth + 1) fuel rest).map fun (items, rest) => (.array items, rest)
    | '\x7b' :: rest =>
      if depthLimit ≤ depth then none
      else
        -- A table in braces may be empty, but no comma stands before its brace.
        match skipSpace rest with
        | '\x7d' :: rest => some (.table true [], rest)
        | rest =>
          (readPairs (depth + 1) fuel .empty rest).map fun (table, rest) =>
            (table.toValue true, rest)
    | 't' :: _ => (afterWord? ['t', 'r', 'u', 'e'] text).map fun rest => (.boolean true, rest)
    | 'f' :: _ => (afterWord? ['f', 'a', 'l', 's', 'e'] text).map fun rest => (.boolean false, rest)
    | _ => if startsDateTime text then readDateTime text else readNumber text

/-- The items of an array up to its bracket. Line ends and comments may stand between them, and a
comma after the last. -/
def readItems (depth : Nat) : (fuel : Nat) → Reader (List Value)
  | 0, _ => none
  | fuel + 1, text =>
    match skipLines (text.length + 1) text with
    | ']' :: rest => some ([], rest)
    | text => do
      let (v, rest) ← readValue depth fuel text
      match skipLines (rest.length + 1) rest with
      | ']' :: rest => return ([v], rest)
      | ',' :: rest => do
        let (items, rest) ← readItems depth fuel rest
        return (v :: items, rest)
      | _ => none

/-- The entries of a table in braces, up to the last brace, all in one line. -/
def readPairs (depth : Nat) : (fuel : Nat) → Table → Reader Table
  | 0, _, _ => none
  | fuel + 1, table, text => do
    let ((path, key), rest) ← readKeyEquals text
    let (v, rest) ← readValue depth fuel rest
    let table ← table.define path key v
    match skipSpace rest with
    | '\x7d' :: rest => return (table, rest)
    | ',' :: rest => readPairs depth fuel table rest
    | _ => none

end

/-! ### Documents -/

/-- A document as far as it is read: the tables that are finished, and the one that is open, where
it belongs and whether it is one of an array. -/
structure State where
  root : Table
  current : Table
  path : List String
  inArray : Bool

namespace State

/-- The state before the first line. -/
def initial : State := ⟨.empty, .empty, [], false⟩

/-- The tables after the open one is finished. -/
def finish (s : State) : Option Table :=
  match s.path.getLast? with
  | none => some s.current
  | some key =>
    s.root.descend false (fun parent =>
      if s.inArray then
        match parent.find? key with
        | none => some (parent.set key (.tables [s.current]))
        | some (.tables earlier) => some (parent.set key (.tables (s.current :: earlier)))
        | some _ => none
      else if (parent.find? key).isSome then none
      else some (parent.set key (.table s.current))) s.path.dropLast

/-- A table that only paths lead through so far, and that a header may therefore name. -/
def reopened? : Item → Option Table
  | .table (.mk implicit dotted entries) =>
    if implicit && !dotted then some (.mk false false entries) else none
  | _ => none

/-- The table at the end of a path, if all tables on the way are there. -/
def lookup (path : List String) (t : Table) : Option Item :=
  match path with
  | [] => some (.table t)
  | key :: path =>
    match t.find? key with
    | some (.table child) => lookup path child
    | some (.tables (latest :: _)) => lookup path latest
    | _ => none

/-- **A header of a table.** The table before is finished; a table that is there already is opened
again if only paths led through it. -/
def openTable (path : List String) (s : State) : Option State := do
  let root ← s.finish
  let key ← path.getLast?
  let root ← root.descend false some path.dropLast
  let parent ← match lookup path.dropLast root with
    | some (.table parent) => some parent
    | _ => none
  match parent.find? key with
  | none => return ⟨root, .empty, path, false⟩
  -- The table is taken out while it is open; it is put back when it is finished.
  | some item =>
    let current ← reopened? item
    let root ← root.descend false (fun parent => some (parent.erase key)) path.dropLast
    return ⟨root, current, path, false⟩

/-- **A header of a table in an array.** -/
def openArrayTable (path : List String) (s : State) : Option State := do
  let root ← s.finish
  let key ← path.getLast?
  let root ← root.descend false (fun parent =>
    match parent.find? key with
    | none | some (.tables _) => some parent
    | some _ => none) path.dropLast
  return ⟨root, .empty, path, true⟩

/-- A key given a value in the open table. -/
def define (path : List String) (key : String) (v : Value) (s : State) : Option State :=
  (s.current.define path key v).map fun current => { s with current }

end State

/-- The path of a header up to its brackets. -/
def readHeader (closing : List Char) (text : List Char) : Option (List String × List Char) := do
  let (path, rest) ← readKey text
  let rest ← afterWord? closing (skipSpace rest)
  return (path, rest)

/-- One line that is neither blank nor a comment. -/
def readLine (s : State) (text : List Char) : Option (State × List Char) :=
  match text with
  | '[' :: '[' :: rest => do
    let (path, rest) ← readHeader [']', ']'] rest
    return (← s.openArrayTable path, ← endOfLine? rest)
  | '[' :: rest => do
    let (path, rest) ← readHeader [']'] rest
    return (← s.openTable path, ← endOfLine? rest)
  | _ => do
    let ((path, key), rest) ← readKeyEquals text
    -- A value takes a step, and so does its place in what holds it; either has a character.
    let (v, rest) ← readValue 0 (2 * rest.length + 2) rest
    return (← s.define path key v, ← endOfLine? rest)

/-- The lines of a document. -/
def readLines : (fuel : Nat) → State → List Char → Option State
  | 0, _, _ => none
  | fuel + 1, s, text =>
    match skipLines (text.length + 1) text with
    | [] => some s
    | text => (readLine s text).bind fun (s, rest) => readLines fuel s rest

/-- A text without the mark of its byte order. -/
def skipByteOrderMark : List Char → List Char
  | c :: rest => if c.toNat = 0xFEFF then rest else c :: rest
  | [] => []

/-- **The table that a document means.** -/
def parse? (text : String) : Option Value := do
  let cs := skipByteOrderMark text.toList
  let s ← readLines (cs.length + 1) .initial cs
  return (← s.finish).toValue false

/-- **From a document to a domain value.** -/
def decode? {α : Type} (decoder : Json.Decoder α) (text : String) : Option α := do
  let v ← parse? text
  (decoder .foreign v.toNode).toOption

end Scoresheet.Toml
