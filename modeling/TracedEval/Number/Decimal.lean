/-!
# Shortest decimals

The shortest decimal text that still reads back as a given double starts from a decimal number
with as few digits as possible. Three things live here:

* `Decimal`, a coefficient scaled by a power of ten;
* `RoundingInterval`, the reals that round to one double, written as naturals over a common
  power of two, so that every comparison is exact;
* `Decimal.shortest`, which walks the decimal grids from coarse to fine and stops at the first
  one that has a point in the interval.

A double is given by its significand `m` and exponent `q` in canonical form: it is `m * 2 ^ q`,
with `2 ^ 52 ≤ m < 2 ^ 53`, or `m < 2 ^ 52` and `q = -1074`.
-/

namespace TracedEval

/-- The number `coefficient * 10 ^ exponent`. -/
structure Decimal where
  coefficient : Nat
  exponent : Int
  deriving DecidableEq, Repr

/-- How many digits `n` has in base ten; zero has one. -/
def decimalLength (n : Nat) : Nat :=
  if n < 10 then 1 else decimalLength (n / 10) + 1
termination_by n

/-- Which of two equally near neighbours a rounding takes. -/
inductive Tie
  | up
  | even
  deriving DecidableEq, Repr

/-- The neighbour that `tie` takes between `n` and `n + 1`. -/
def Tie.pick : Tie → Nat → Nat
  | .up, n => n + 1
  | .even, n => n + n % 2

namespace Decimal

/-- Where the decimal point stands relative to the first digit: the number is `0.d₁d₂… * 10 ^
point`, with `d₁ ≠ 0` unless the coefficient is zero. -/
def point (d : Decimal) : Int := decimalLength d.coefficient + d.exponent

/-- The same number without zeros at the end of the coefficient. -/
def trimZeros (coefficient : Nat) (exponent : Int) : Decimal :=
  if coefficient ≠ 0 ∧ coefficient % 10 = 0 then trimZeros (coefficient / 10) (exponent + 1)
  else ⟨coefficient, exponent⟩
termination_by coefficient
decreasing_by omega

end Decimal

/-! ## The reals that round to a double -/

/-- The reals that round to one double: everything between `lower` and `upper`, in units of
`2 ^ unit`, with the ends if `closed`. The double itself is `value` units. -/
structure RoundingInterval where
  lower : Nat
  value : Nat
  upper : Nat
  unit : Int
  closed : Bool
  deriving DecidableEq, Repr

namespace RoundingInterval

/-- The interval of `m * 2 ^ q`. A quarter of the last place is the unit; the gap below a power of
two is half as wide, except at the bottom of the range. Halfway points round to even
significands, so the ends belong to the interval exactly when `m` is even. -/
def ofCanonical (m : Nat) (q : Int) : RoundingInterval where
  lower := 4 * m - (if m = Nat.pow 2 52 ∧ -1074 < q then 1 else 2)
  value := 4 * m
  upper := 4 * m + 2
  unit := q - 2
  closed := m % 2 = 0

/-- What a number of units is multiplied by to be compared with steps of `10 ^ grid`, once those
are multiplied by `stepScale`. -/
def unitScale (i : RoundingInterval) (grid : Int) : Nat :=
  Nat.pow 2 i.unit.toNat * Nat.pow 10 (-grid).toNat

/-- What a number of steps of `10 ^ grid` is multiplied by to be compared with units, once those
are multiplied by `unitScale`. -/
def stepScale (i : RoundingInterval) (grid : Int) : Nat :=
  Nat.pow 2 (-i.unit).toNat * Nat.pow 10 grid.toNat

/-- Whether `n` steps of `10 ^ grid` lie in the interval. -/
def contains (i : RoundingInterval) (grid : Int) (n : Nat) : Bool :=
  let here := n * i.stepScale grid
  let low := i.lower * i.unitScale grid
  let high := i.upper * i.unitScale grid
  if i.closed then low ≤ here && here ≤ high else low < here && here < high

/-- The point of the grid `10 ^ grid` nearest to the double, if one of the two points around the
double lies in the interval. -/
def nearest? (i : RoundingInterval) (tie : Tie) (grid : Int) : Option Nat :=
  let exact := i.value * i.unitScale grid
  let step := i.stepScale grid
  let below := exact / step
  let excess := exact - below * step
  let shortfall := (below + 1) * step - exact
  match i.contains grid below, i.contains grid (below + 1) with
  | true, true =>
    some (if excess < shortfall then below else if shortfall < excess then below + 1
      else tie.pick below)
  | true, false => some below
  | false, true => some (below + 1)
  | false, false => none

/-- The power of ten just above the double: it is at least `10 ^ (point - 1)` and less than
`10 ^ point`. -/
def point (i : RoundingInterval) : Int :=
  let numerator := i.value * Nat.pow 2 i.unit.toNat
  let denominator := Nat.pow 2 (-i.unit).toNat
  if denominator ≤ numerator then decimalLength (numerator / denominator)
  else 1 - (decimalLength ((denominator - 1) / numerator) : Int)

end RoundingInterval

/-- The decimal with the fewest digits that rounds to `m * 2 ^ q`, the nearest of those, and of
two equally near ones the one that `tie` takes. Seventeen digits always suffice, so the default is
never reached. -/
def Decimal.shortest (tie : Tie) (m : Nat) (q : Int) : Decimal :=
  let i := RoundingInterval.ofCanonical m q
  let hit := (List.range 17).findSome? fun (digit : Nat) =>
    let grid := i.point - (digit + 1)
    (i.nearest? tie grid).map fun n => Decimal.trimZeros n grid
  hit.getD ⟨0, 0⟩

end TracedEval
