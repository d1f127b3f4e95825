import PojoGraph.Decimal.Power

/-!
# Shortest decimals

Among the decimals that read back to a given double, the ones with the fewest digits, and of
those the nearest, are found by exact arithmetic on natural numbers. A double is `m * 2 ^ q`;
the reals that round to it form an interval, and the decimals of a given number of digits form
a grid, of which only the two neighbours of the value need a test.

## Main definitions

* `Binary`, `Binary.ofFloat` — a finite, non-negative double taken apart.
* `Scientific` — digits and a power of ten.
* `Binary.readsBack` — whether a decimal lies in the interval of a double.
* `shortest` — the decimal with the fewest digits that does.
-/

namespace PojoGraph.Decimal

/-- The number `significand * 2 ^ exponent`. The gap to the double below is half the gap to the
one above where `isNarrowBelow` holds. -/
structure Binary where
  significand : Nat
  exponent : Int
  isNarrowBelow : Bool
  deriving DecidableEq, Repr

/-- The magnitude of a finite double. -/
def Binary.ofFloat (x : Float) : Binary :=
  let bits : Nat := x.toBits.toNat % (1 <<< 63)
  let biased : Nat := bits >>> 52
  let fraction : Nat := bits % (1 <<< 52)
  if biased = 0 then ⟨fraction, -1074, false⟩
  else ⟨1 <<< 52 + fraction, (biased : Int) - 1075, fraction == 0 && decide (1 < biased)⟩

/-- The number `digits * 10 ^ exponent`. -/
structure Scientific where
  digits : Nat
  exponent : Int
  deriving DecidableEq, Repr, Inhabited

/-- Compares `a * 10 ^ i` with `n * 2 ^ j`. -/
def compareScaled (a : Nat) (i : Int) (n : Nat) (j : Int) : Ordering :=
  compare ((a * tenTo i.toNat) <<< (-j).toNat) ((n * tenTo (-i).toNat) <<< j.toNat)

namespace Binary

/-- Whether a decimal lies among the reals that round to this double. The ends of that interval
belong to it exactly when the significand is even. -/
def readsBack (x : Binary) (d : Scientific) : Bool :=
  let low := if x.isNarrowBelow then 4 * x.significand - 1 else 4 * x.significand - 2
  let aboveLow := compareScaled d.digits d.exponent low (x.exponent - 2)
  let belowHigh := compareScaled d.digits d.exponent (4 * x.significand + 2) (x.exponent - 2)
  let closed := x.significand % 2 == 0
  (aboveLow == .gt || (closed && aboveLow == .eq))
    && (belowHigh == .lt || (closed && belowHigh == .eq))

/-- The quotient of the value by `10 ^ i`, rounded down. -/
def floorQuotient (x : Binary) (i : Int) : Nat :=
  ((x.significand * tenTo (-i).toNat) <<< x.exponent.toNat)
    / (tenTo i.toNat <<< (-x.exponent).toNat)

/-- An estimate of the least `k` with the value below `10 ^ k`, never more than one too small,
from the number of binary digits; 1233 / 4096 is slightly below the logarithm of 2. -/
def scaleEstimate (x : Binary) : Int :=
  Int.fdiv (((x.significand.log2 : Int) + x.exponent) * 1233) 4096

/-- The least `k` with the value below `10 ^ k`, for a value other than zero. -/
def scale (x : Binary) : Int :=
  let start := x.scaleEstimate - 1
  let steps := (List.range 5).find? fun (step : Nat) =>
    compareScaled 1 (start + step) x.significand x.exponent == .gt
  start + (steps.getD 5 : Nat)

/-- The neighbour of the value on the grid of `10 ^ i` that reads back: the nearer one if both
do, and of two equally near ones the even one. -/
def gridPoint? (x : Binary) (i : Int) : Option Scientific :=
  let below : Scientific := ⟨x.floorQuotient i, i⟩
  let above : Scientific := ⟨x.floorQuotient i + 1, i⟩
  match x.readsBack below, x.readsBack above with
  | true, false => some below
  | false, true => some above
  | false, false => none
  | true, true =>
    match compareScaled (below.digits + above.digits) i (2 * x.significand) x.exponent with
    | .lt => some above
    | .gt => some below
    | .eq => some (if below.digits % 2 == 0 then below else above)

end Binary

namespace Scientific

/-- The decimal with the zeros at the end of its digits moved into the exponent, of which
there are at most `fuel`. -/
def stripZeros : Nat → Scientific → Scientific
  | 0, d => d
  | fuel + 1, d =>
    if d.digits != 0 && d.digits % 10 == 0 then stripZeros fuel ⟨d.digits / 10, d.exponent + 1⟩
    else d

/-- The exact decimal value of a double. A power of ten shifted by its exponent is the power of
five. -/
def ofBinary (x : Binary) : Scientific :=
  if 0 ≤ x.exponent then ⟨x.significand <<< x.exponent.toNat, 0⟩
  else ⟨x.significand * (tenTo (-x.exponent).toNat >>> (-x.exponent).toNat), x.exponent⟩

end Scientific

/-- The shortest decimal that reads back to a double: the first of the grids of one, two, … up
to seventeen digits on which the value has a neighbour in its interval decides. -/
def shortest (x : Binary) : Scientific :=
  if x.significand = 0 then ⟨0, 0⟩
  else
    let scale := x.scale
    let found := (List.range 17).findSome? fun (n : Nat) => x.gridPoint? (scale - (n + 1 : Nat))
    (found.getD (.ofBinary x)).stripZeros 800

end PojoGraph.Decimal
