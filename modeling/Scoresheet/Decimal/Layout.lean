import Scoresheet.Decimal.Shortest

/-!
# Decimal text of floats

The shortest digits of a float say which number it is; a `Layout` says how they are written. A
fixed number of places is a text of its own, rounded from the exact value.

* `Layout` — the decisions of one output format.
* `Layout.text` — a float in full.
* `plain` — the layout of formulas, tables and pages: always positional.
* `fixed` — a float to a fixed number of places.
* `signed` — a text with an explicit plus sign.
-/

namespace Scoresheet.Decimal

/-- How the digits of a float are laid out. -/
structure Layout where
  /-- Which of two equally short and equally near decimals is written. -/
  tie : Tie
  /-- Whether a number whose leading digit stands for `10^e` is written without an exponent. -/
  positional : Int → Bool
  /-- Whether an integral number in positional form is followed by `.0`. -/
  pointZero : Bool

/-- The decimal digits of a natural number. -/
def digitChars (n : Nat) : List Char :=
  Nat.toDigits 10 n

/-- `digits · 10^exponent` in positional form. -/
def positionalText (pointZero : Bool) (d : Digits) : List Char :=
  let ds := digitChars d.digits
  let point := (ds.length : Int) + d.exponent
  -- The point stands after the digits, among them, or before them.
  if 0 ≤ d.exponent then
    ds ++ List.replicate d.exponent.toNat '0' ++ (if pointZero then ['.', '0'] else [])
  else if 0 < point then
    ds.take point.toNat ++ '.' :: ds.drop point.toNat
  else
    '0' :: '.' :: List.replicate (-point).toNat '0' ++ ds

/-- `digits · 10^exponent` with one digit before the point and a signed exponent. -/
def scientificText (d : Digits) : List Char :=
  let ds := digitChars d.digits
  let lead := (ds.length : Int) + d.exponent - 1
  let fraction := match ds.drop 1 with
    | [] => []
    | rest => '.' :: rest
  ds.take 1 ++ fraction ++ 'e' :: (if lead < 0 then '-' else '+') :: digitChars lead.natAbs

/-- The text of a magnitude: positional where the layout asks for it, else with an exponent. -/
def Layout.magnitudeText (layout : Layout) (x : Magnitude) : List Char :=
  let d := x.shortest layout.tie
  if layout.positional ((digitChars d.digits).length + d.exponent - 1) then
    positionalText layout.pointZero d
  else scientificText d

/-- The text of a float, with its sign in front; zero keeps its sign too. -/
def Layout.text (layout : Layout) (x : Float) : String :=
  if x.isNaN then "NaN"
  else
    let body := if x.isFinite then layout.magnitudeText (.ofFloat x) else ['i', 'n', 'f']
    String.ofList (if isNegative x then '-' :: body else body)

/-- Numbers are shown positionally, however large or small, and without a point when integral. -/
def plainLayout : Layout where
  tie := .away
  positional _ := true
  pointZero := false

/-- A float in full: its shortest digits in positional form. -/
def plain (x : Float) : String :=
  plainLayout.text x

/-- The quotient `num / den` rounded to the nearest natural number, a half to the even one. -/
def roundDiv (num den : Nat) : Nat :=
  let quotient := num / den
  match compare (2 * (num % den)) den with
  | .lt => quotient
  | .gt => quotient + 1
  | .eq => if quotient % 2 = 0 then quotient else quotient + 1

/-- The exact value of a float rounded to a fixed number of places, a half to the even neighbour.
A number that rounds to zero keeps its sign. -/
def fixed (places : Nat) (x : Float) : String :=
  if x.isFinite then
    let m := Magnitude.ofFloat x
    let scaled := roundDiv (m.mantissa * Nat.pow 2 m.exponent.toNat * Nat.pow 10 places)
      (Nat.pow 2 (-m.exponent).toNat)
    let ds := digitChars scaled
    -- At least one digit stands before the point.
    let padded := List.replicate (places + 1 - ds.length) '0' ++ ds
    let whole := padded.take (padded.length - places)
    let fraction := padded.drop (padded.length - places)
    let body := if places = 0 then whole else whole ++ '.' :: fraction
    String.ofList (if isNegative x then '-' :: body else body)
  else plain x

/-- A float's text with a plus sign in front unless it has a minus sign or is no number. -/
def signed (text : Float → String) (x : Float) : String :=
  if x.isNaN || isNegative x then text x else "+" ++ text x

end Scoresheet.Decimal
