import ScriptPool.Number.Double

/-!
The shortest decimal numeral of a double.

The reals that round to a double form an interval around it, with its ends included exactly when
the mantissa is even. On the grid of multiples of a power of ten only the two neighbours of the
double can be the nearest grid point in the interval. The coarsest grid with such a neighbour gives
the fewest digits; of two neighbours the nearer is taken, and the upper one on a tie.
-/

namespace ScriptPool.Number

namespace Magnitude

/-- Half way down to the next smaller magnitude, in quarters of a unit. -/
def lowerQuarters (x : Magnitude) : Nat :=
  if x.mantissa = Nat.pow 2 52 ∧ 0 < x.scale then 4 * x.units - Nat.pow 2 x.scale
  else 4 * x.units - 2 * Nat.pow 2 x.scale

/-- Half way up to the next larger magnitude, in quarters of a unit. -/
def upperQuarters (x : Magnitude) : Nat :=
  4 * x.units + 2 * Nat.pow 2 x.scale

/-- Whether the number `n / d` of quarter units rounds to this magnitude. -/
def attracts (x : Magnitude) (n d : Nat) : Bool :=
  if x.mantissa % 2 = 0 then x.lowerQuarters * d ≤ n && n ≤ x.upperQuarters * d
  else x.lowerQuarters * d < n && n < x.upperQuarters * d

/-- The multiple of `10 ^ exponent` that rounds to this magnitude and is nearest to it, given as
its factor. Of two that are equally near it is the larger one. -/
def nearestMultiple? (x : Magnitude) (exponent : Int) : Option Nat :=
  let grid := 4 * unitsPerOne * Nat.pow 10 exponent.toNat
  let part := Nat.pow 10 (-exponent).toNat
  let value := 4 * x.units * part
  let below := value / grid
  let above := below + 1
  match x.attracts (below * grid) part, x.attracts (above * grid) part with
  | true, true => some (if 2 * (value % grid) < grid then below else above)
  | true, false => some below
  | false, true => some above
  | false, false => none

/-- Looks for a grid point on coarser grids first, at most `tries` grids down from `exponent`. -/
def searchGrid (x : Magnitude) : (tries : Nat) → (exponent : Int) → Option (Nat × Int)
  | 0, _ => none
  | tries + 1, exponent =>
    match x.nearestMultiple? exponent with
    | some factor => some (factor, exponent)
    | none => x.searchGrid tries (exponent - 1)

/-- A power of ten that is larger than twice the magnitude: 30103 / 100000 is a little more than
the common logarithm of two. -/
def coarsestExponent (x : Magnitude) : Int :=
  (((x.units.log2 : Int) + 2 - 1074) * 30103) / 100000 + 1

/-- The shortest decimal `factor * 10 ^ exponent` that rounds to this magnitude, nearest to it
among the shortest. -/
def shortest (x : Magnitude) : Nat × Int :=
  if x.units = 0 then (0, 0) else (x.searchGrid 24 x.coarsestExponent).getD (0, 0)

end Magnitude

end ScriptPool.Number
