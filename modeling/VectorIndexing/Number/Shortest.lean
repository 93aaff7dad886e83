import VectorIndexing.Number.Double

/-!
# Shortest decimals

The decimal with the fewest digits among those that round to a given double, the nearest of
these to the double, and of two equally near ones the larger. The search goes through the
decimal grids from coarse to fine and tests, on each, only the two points next to the double:
when a grid has a point that rounds to the double, one of these two is such a point.
-/

namespace VectorIndexing

/-- The number `coefficient * 10 ^ exponent`. -/
structure Decimal where
  coefficient : Nat
  exponent : Int
  deriving DecidableEq, Repr

namespace Decimal

/-- Digits with a decimal point where one is needed, never an exponent. -/
def positional (d : Decimal) : String :=
  let digits := Nat.toDigits 10 d.coefficient
  if 0 ≤ d.exponent then
    String.ofList (digits ++ List.replicate d.exponent.toNat '0')
  else
    let places := (-d.exponent).toNat
    let padded := List.replicate (places + 1 - digits.length) '0' ++ digits
    let whole := padded.length - places
    String.ofList (padded.take whole ++ '.' :: padded.drop whole)

end Decimal

/-- The numbers that round to a positive double, as multiples of `2 ^ unit`. -/
structure RoundingInterval where
  lower : Nat
  /-- The double itself. -/
  middle : Nat
  upper : Nat
  unit : Int
  /-- Whether the ends round to the double. -/
  closed : Bool
  deriving DecidableEq, Repr

namespace RoundingInterval

/-- Half a step to each neighbour; the step down from a power of two is half as long. -/
def ofDouble (x : Double) : RoundingInterval where
  lower := 4 * x.significand - (if x.fraction = 0 ∧ 1 < x.exponentField then 1 else 2)
  middle := 4 * x.significand
  upper := 4 * x.significand + 2
  unit := x.exponent - 2
  closed := x.significand % 2 == 0

/-- The point `n * 10 ^ p` on the scale of `scaled`. -/
def gridPoint (r : RoundingInterval) (p : Int) (n : Nat) : Nat :=
  (n * Nat.pow 10 p.toNat) <<< (-r.unit).toNat

/-- The number `n * 2 ^ unit` on the scale of `gridPoint`. -/
def scaled (r : RoundingInterval) (p : Int) (n : Nat) : Nat :=
  (n <<< r.unit.toNat) * Nat.pow 10 (-p).toNat

/-- Whether `n * 10 ^ p` rounds to the double. -/
def contains (r : RoundingInterval) (p : Int) (n : Nat) : Bool :=
  let lower := r.scaled p r.lower
  let upper := r.scaled p r.upper
  let point := r.gridPoint p n
  if r.closed then lower ≤ point && point ≤ upper else lower < point && point < upper

/-- The nearest multiple of `10 ^ p` that rounds to the double, if any does. -/
def onGrid (r : RoundingInterval) (p : Int) : Option Nat :=
  let below := r.scaled p r.middle / r.gridPoint p 1
  match r.contains p below, r.contains p (below + 1) with
  | true, true =>
    if 2 * r.scaled p r.middle < r.gridPoint p (2 * below + 1) then some below
    else some (below + 1)
  | true, false => some below
  | false, true => some (below + 1)
  | false, false => none

/-- An exponent of ten above every grid that can have a hit. -/
def topExponent (r : RoundingInterval) : Int :=
  (r.middle.log2 + r.unit + 1) * 30103 / 100000 + 1

/-- The double written out in full. -/
def exactDecimal (r : RoundingInterval) : Decimal :=
  if 0 ≤ r.unit then ⟨r.middle <<< r.unit.toNat, 0⟩
  else ⟨r.middle * Nat.pow 5 (-r.unit).toNat, r.unit⟩

/-- The first hit from the coarsest grid on. Seventeen digits always suffice, and the first
digit is found within four grids of the top. -/
def shortest (r : RoundingInterval) : Decimal :=
  ((List.range 21).findSome? fun (i : Nat) =>
    (r.onGrid (r.topExponent - i)).map fun n => ⟨n, r.topExponent - i⟩).getD r.exactDecimal

end RoundingInterval

namespace Double

/-- Text of a number: the shortest decimal in positional form, with the given spelling of
infinity. -/
def render (infinity : String) (x : Double) : String :=
  if x.isNaN then "NaN"
  else (if x.isNegative then "-" else "") ++
    if x.isInfinite then infinity
    else if x.isZero then "0"
    else (RoundingInterval.ofDouble x).shortest.positional

/-- Text of a number as an element of a character vector. -/
def text (x : Double) : String := x.render "Inf"

/-- Text of a number when it is shown as an element of its own vector. -/
def display (x : Double) : String := x.render "inf"

end Double

end VectorIndexing
