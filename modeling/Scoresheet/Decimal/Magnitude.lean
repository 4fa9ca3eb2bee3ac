/-!
# Finite floats as exact binary numbers

A finite float is a sign and a magnitude `mantissa · 2^exponent`. All decimal text of a float is
chosen on this exact value, so that no digit depends on a second rounding.

* `Magnitude.ofFloat` — the magnitude that a float's bits stand for.
* `isNegative` — the sign bit, which zero has too.
* `Digits` — a decimal `digits · 10^exponent`, what a text of digits stands for.
-/

namespace Scoresheet.Decimal

/-- The exact magnitude `mantissa · 2^exponent` of a finite float. -/
structure Magnitude where
  mantissa : Nat
  exponent : Int
  /-- The value is a power of two whose neighbour below is half as far away as the one above. -/
  narrowBelow : Bool
deriving Repr, DecidableEq

/-- A decimal `digits · 10^exponent`. -/
structure Digits where
  digits : Nat
  exponent : Int
deriving Repr, DecidableEq

/-- Whether the sign bit is set: true of `-0.0` as well as of every number below zero. -/
def isNegative (x : Float) : Bool :=
  x.toBits.toNat / Nat.pow 2 63 = 1

/-- **The magnitude of a finite float.** Eleven bits hold the exponent, 52 the fraction; the least
exponent field is that of the subnormal numbers, which have no leading one. The infinities and the
NaN are no such value, and callers test for them first. -/
def Magnitude.ofFloat (x : Float) : Magnitude :=
  let bits : Nat := x.toBits.toNat
  let field : Nat := bits / Nat.pow 2 52 % Nat.pow 2 11
  let fraction : Nat := bits % Nat.pow 2 52
  if field = 0 then ⟨fraction, -1074, false⟩
  else ⟨Nat.pow 2 52 + fraction, Int.ofNat field - 1075, fraction == 0 && 1 < field⟩

/-- The order of `a · 10^i` and `n · 2^j`, decided by cross-multiplying naturals. -/
def compareScaled (a : Nat) (i : Int) (n : Nat) (j : Int) : Ordering :=
  compare (a * Nat.pow 10 i.toNat * Nat.pow 2 (-j).toNat)
    (n * Nat.pow 2 j.toNat * Nat.pow 10 (-i).toNat)

/-- The greatest `n` with `n · 10^grid` at most the magnitude. -/
def Magnitude.floorAt (x : Magnitude) (grid : Int) : Nat :=
  (x.mantissa * Nat.pow 2 x.exponent.toNat * Nat.pow 10 (-grid).toNat)
    / (Nat.pow 2 (-x.exponent).toNat * Nat.pow 10 grid.toNat)

end Scoresheet.Decimal
