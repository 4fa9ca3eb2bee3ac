/-!
# Reading decimal text

A decimal text denotes the float nearest to it. The grammar is an optional sign, digits with an
optional point among, before or after them, and an optional exponent; the words for infinity and
not-a-number are accepted in any case.

* `nearest` — the float nearest to `digits · 10^exponent`.
* `ofText?` — the float that a text denotes.
-/

namespace Scoresheet.Decimal

/-- The natural number that a run of decimal digits denotes. -/
def digitsValue (run : List Char) : Nat :=
  run.foldl (fun n c => 10 * n + (c.toNat - '0'.toNat)) 0

/-- **The float nearest to `digits · 10^exponent`,** ties to even. A number that no float is near
becomes infinity or zero before any power of ten is formed, so that the size of the exponent does
not matter. -/
def nearest (digits : Nat) (exponent : Int) : Float :=
  if digits = 0 then 0.0
  else if 400 < exponent then 1.0 / 0.0
  else if exponent + Nat.log2 digits < -400 then 0.0
  else Float.ofScientific digits (exponent < 0) exponent.natAbs

/-- A text split after its longest leading run of decimal digits. -/
def spanDigits (text : List Char) : List Char × List Char :=
  (text.takeWhile Char.isDigit, text.dropWhile Char.isDigit)

/-- A text split into a leading minus sign, if it has one, and the rest; a plus sign is dropped. -/
def spanSign : List Char → Bool × List Char
  | '-' :: rest => (true, rest)
  | '+' :: rest => (false, rest)
  | text => (false, text)

/-- The exponent that ends a decimal text: nothing, or a mark, an optional sign and digits. -/
def exponent? : List Char → Option Int
  | [] => some 0
  | mark :: rest =>
    if mark = 'e' ∨ mark = 'E' then
      let (negative, body) := spanSign rest
      let (run, tail) := spanDigits body
      if run = [] ∨ tail ≠ [] then none
      else some (if negative then -(digitsValue run : Int) else digitsValue run)
    else none

/-- The magnitude that an unsigned decimal text denotes. -/
def magnitude? (text : List Char) : Option Float :=
  let (whole, afterWhole) := spanDigits text
  let (fraction, tail) := match afterWhole with
    | '.' :: rest => spanDigits rest
    | rest => ([], rest)
  if whole = [] ∧ fraction = [] then none
  else (exponent? tail).map fun e => nearest (digitsValue (whole ++ fraction)) (e - fraction.length)

/-- The words that denote no finite number, by their letters in lower case. -/
def word? (text : List Char) : Option Float :=
  match text.map Char.toLower with
  | ['i', 'n', 'f'] | ['i', 'n', 'f', 'i', 'n', 'i', 't', 'y'] => some (1.0 / 0.0)
  | ['n', 'a', 'n'] => some (0.0 / 0.0)
  | _ => none

/-- **The float that a text denotes,** if it is a decimal text or one of the words. -/
def ofText? (text : List Char) : Option Float :=
  let (negative, body) := spanSign text
  let value := (word? body).or (magnitude? body)
  if negative then value.map (- ·) else value

end Scoresheet.Decimal
