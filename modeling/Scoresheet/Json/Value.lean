import Scoresheet.Decimal.Layout

/-!
# JSON values and their text

A value is what a JSON text means: numbers are kept apart as integers and floats, and the members of
an object stay in the order in which they were put there.

* `Value.compact` — the text without blanks.
* `Value.pretty` — the text with one item a line, indented by two blanks a level.
* `Value.sorted` — the same value with the members of every object in key order.
-/

namespace Scoresheet.Json

/-- A JSON value. A float that is not finite is written as `null`. -/
inductive Value where
  | null
  | bool (b : Bool)
  | int (n : Int)
  | float (x : Float)
  | string (s : String)
  | array (items : List Value)
  | object (members : List (String × Value))

/-! ### Scalars -/

/-- Floats are written positionally from one hundred-thousandth on and below `10^16`, otherwise with
an exponent; one that is integral shows a zero after the point. -/
def numberLayout : Decimal.Layout where
  tie := .even
  positional e := -5 ≤ e && e < 16
  pointZero := true

/-- The text of a float. -/
def floatText (x : Float) : List Char :=
  if x.isFinite then (numberLayout.text x).toList else ['n', 'u', 'l', 'l']

/-- The digit of a hexadecimal numeral, in lower case. -/
def hexDigit (n : Nat) : Char :=
  if n < 10 then Char.ofNat ('0'.toNat + n) else Char.ofNat ('a'.toNat + (n - 10))

/-- A character inside a string: quotes, backslashes and the controls below the blank are escaped,
all else stands for itself. -/
def escapeChar (c : Char) : List Char :=
  if c = '"' then ['\\', '"']
  else if c = '\\' then ['\\', '\\']
  else if c = '\n' then ['\\', 'n']
  else if c = '\r' then ['\\', 'r']
  else if c = '\t' then ['\\', 't']
  else if c.toNat = 8 then ['\\', 'b']
  else if c.toNat = 12 then ['\\', 'f']
  else if c.toNat < 32 then ['\\', 'u', '0', '0', hexDigit (c.toNat / 16), hexDigit (c.toNat % 16)]
  else [c]

/-- A string with its quotes. -/
def stringText (s : String) : List Char :=
  '"' :: s.toList.flatMap escapeChar ++ ['"']

/-- The text of an integer. -/
def intText (n : Int) : List Char :=
  if n < 0 then '-' :: Decimal.digitChars n.natAbs else Decimal.digitChars n.natAbs

/-- The text of a truth value. -/
def boolText : Bool → List Char
  | true => ['t', 'r', 'u', 'e']
  | false => ['f', 'a', 'l', 's', 'e']

/-! ### Compact text -/

mutual

/-- The text of a value without blanks. -/
def compactChars : Value → List Char
  | .null => ['n', 'u', 'l', 'l']
  | .bool b => boolText b
  | .int n => intText n
  | .float x => floatText x
  | .string s => stringText s
  | .array items => '[' :: compactItems true items
  | .object members => '{' :: compactMembers true members

/-- The items of an array up to its bracket; a comma stands before each but the first. -/
def compactItems (first : Bool) : List Value → List Char
  | [] => [']']
  | v :: rest => (if first then [] else [',']) ++ compactChars v ++ compactItems false rest

/-- The members of an object up to its brace; a comma stands before each but the first. -/
def compactMembers (first : Bool) : List (String × Value) → List Char
  | [] => ['}']
  | (key, v) :: rest =>
    (if first then [] else [',']) ++ stringText key ++ ':' :: compactChars v
      ++ compactMembers false rest

end

/-! ### Indented text -/

/-- A new line, indented by two blanks a level. -/
def newLine (level : Nat) : List Char :=
  '\n' :: List.replicate (2 * level) ' '

mutual

/-- The text of a value with one item a line. The lines of what it holds are indented one level more
than the value; an empty array or object is written on one line. -/
def prettyChars (level : Nat) : Value → List Char
  | .null => ['n', 'u', 'l', 'l']
  | .bool b => boolText b
  | .int n => intText n
  | .float x => floatText x
  | .string s => stringText s
  | .array items => '[' :: prettyItems level true items
  | .object members => '{' :: prettyMembers level true members

/-- The items of an array up to its bracket. -/
def prettyItems (level : Nat) (first : Bool) : List Value → List Char
  | [] => (if first then [] else newLine level) ++ [']']
  | v :: rest =>
    (if first then [] else [',']) ++ newLine (level + 1) ++ prettyChars (level + 1) v
      ++ prettyItems level false rest

/-- The members of an object up to its brace. -/
def prettyMembers (level : Nat) (first : Bool) : List (String × Value) → List Char
  | [] => (if first then [] else newLine level) ++ ['}']
  | (key, v) :: rest =>
    (if first then [] else [',']) ++ newLine (level + 1) ++ stringText key ++ [':', ' ']
      ++ prettyChars (level + 1) v ++ prettyMembers level false rest

end

namespace Value

/-- **The text of a value without blanks.** -/
def compact (v : Value) : String :=
  String.ofList (compactChars v)

/-- **The text of a value with one item a line.** -/
def pretty (v : Value) : String :=
  String.ofList (prettyChars 0 v)

/-- A value that may be missing; `null` stands for one that is. -/
def ofOption {α : Type} (encode : α → Value) : Option α → Value
  | some a => encode a
  | none => .null

end Value

/-! ### Objects in key order -/

/-- A member put into a list of members in ascending key order, in place of the member with its key
if there is one. -/
def insertMember (key : String) (v : Value) : List (String × Value) → List (String × Value)
  | [] => [(key, v)]
  | (key', v') :: rest =>
    if key < key' then (key, v) :: (key', v') :: rest
    else if key = key' then (key, v) :: rest
    else (key', v') :: insertMember key v rest

mutual

/-- **The same value with every object in ascending key order.** Of two members with one key the
later one stays. -/
def Value.sorted : Value → Value
  | .array items => .array (sortedItems items)
  | .object members => .object (sortedMembers [] members)
  | v => v

/-- The items of an array, each in key order. -/
def sortedItems : List Value → List Value
  | [] => []
  | v :: rest => v.sorted :: sortedItems rest

/-- The members of an object put into the members before them. -/
def sortedMembers (before : List (String × Value)) : List (String × Value) → List (String × Value)
  | [] => before
  | (key, v) :: rest => sortedMembers (insertMember key v.sorted before) rest

end

end Scoresheet.Json
