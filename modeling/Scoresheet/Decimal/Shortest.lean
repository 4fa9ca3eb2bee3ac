import Scoresheet.Decimal.Magnitude

/-!
# The fewest digits that read back

Among the decimals that round to a given float there are some of least length, and of those one
nearest to the float. That decimal identifies the float, and it is what every text of this library
that shows a float in full is made of.

* `Magnitude.roundsFrom` — whether a decimal rounds to the magnitude.
* `Magnitude.shortest` — the nearest of the shortest decimals that do.
-/

namespace Scoresheet.Decimal

/-- Which of two equally near decimals is taken. -/
inductive Tie where
  /-- The one whose last digit is even. -/
  | even
  /-- The one further from zero. -/
  | away
deriving Repr, DecidableEq

/-- **The rounding interval.** A decimal rounds to the magnitude when it lies between the midpoints
to the two neighbouring floats; a midpoint itself rounds to the even mantissa. The interval is
measured in quarters of the last place, since a power of two has its lower midpoint there. -/
def Magnitude.roundsFrom (x : Magnitude) (d : Digits) : Bool :=
  -- Half of the last place above; half below, or a quarter where the neighbour is nearer.
  let low := if x.narrowBelow then 4 * x.mantissa - 1 else 4 * x.mantissa - 2
  let high := 4 * x.mantissa + 2
  let endsCount := x.mantissa % 2 == 0
  let atLow := compareScaled d.digits d.exponent low (x.exponent - 2)
  let atHigh := compareScaled d.digits d.exponent high (x.exponent - 2)
  (atLow == .gt || endsCount && atLow == .eq) && (atHigh == .lt || endsCount && atHigh == .eq)

/-- The least of the three exponents from `k` on that puts the magnitude below `10^k`. -/
def Magnitude.scaleFrom (x : Magnitude) (k : Int) : Int :=
  if compareScaled 1 k x.mantissa x.exponent == .gt then k
  else if compareScaled 1 (k + 1) x.mantissa x.exponent == .gt then k + 1
  else k + 2

/-- The least `k` with the magnitude below `10^k`, for a magnitude other than zero. The binary
logarithm gives a first guess that is never above it and at most two below. -/
def Magnitude.scale (x : Magnitude) : Int :=
  x.scaleFrom (((Nat.log2 x.mantissa : Int) + x.exponent) * 30103 / 100000)

/-- The decimal on the grid of multiples of `10^grid` that rounds to the magnitude and is nearest
to it. Only the two neighbours of the magnitude on the grid can be. -/
def Magnitude.onGrid? (x : Magnitude) (tie : Tie) (grid : Int) : Option Digits :=
  let below : Digits := ⟨x.floorAt grid, grid⟩
  let above : Digits := ⟨x.floorAt grid + 1, grid⟩
  match x.roundsFrom below, x.roundsFrom above with
  | false, false => none
  | true, false => some below
  | false, true => some above
  | true, true =>
    -- The point halfway between the two is compared with the magnitude, both doubled.
    match compareScaled (2 * below.digits + 1) grid x.mantissa (x.exponent + 1), tie with
    | .gt, _ => some below
    | .lt, _ => some above
    | .eq, .even => some (if below.digits % 2 = 0 then below else above)
    | .eq, .away => some above

/-- The same decimal with its trailing zeros moved into the exponent. -/
def Digits.stripped (d : Digits) : Nat → Digits
  | 0 => d
  | fuel + 1 =>
    if d.digits ≠ 0 ∧ d.digits % 10 = 0 then
      Digits.stripped ⟨d.digits / 10, d.exponent + 1⟩ fuel
    else d

/-- The magnitude itself, written as a decimal. -/
def Magnitude.exact (x : Magnitude) : Digits :=
  ⟨x.mantissa * Nat.pow 2 x.exponent.toNat * Nat.pow 5 (-x.exponent).toNat, min x.exponent 0⟩

/-- **The shortest decimal that reads back.** Grids of one digit, two digits, up to seventeen are
tried in turn; the first with a decimal that rounds to the magnitude gives the result. Seventeen
digits identify every float; should none be found, the exact value is given. -/
def Magnitude.shortest (x : Magnitude) (tie : Tie) : Digits :=
  if x.mantissa = 0 then ⟨0, 0⟩
  else
    let found := (List.range 17).findSome? fun (n : Nat) => x.onGrid? tie (x.scale - 1 - n)
    (found.getD x.exact).stripped 20

end Scoresheet.Decimal
