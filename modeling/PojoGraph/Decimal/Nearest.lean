import PojoGraph.Decimal.Power

/-!
# Doubles nearest to decimals

The double nearest to a rational number is found by exact arithmetic on natural numbers; of two
that are equally near, the one with the even significand counts.

## Main definitions

* `roundQuotient` — a quotient rounded to the nearest natural number.
* `nearestBits` — the bits of the double nearest to a quotient.
* `nearest` — the double nearest to a decimal.
-/

namespace PojoGraph.Decimal

/-- The natural number nearest to `n / d`; of two, the even one. -/
def roundQuotient (n d : Nat) : Nat :=
  let q := n / d
  let twice := 2 * (n % d)
  if twice < d || (twice == d && q % 2 == 0) then q else q + 1

/-- The quotient `n / d` in units of `2 ^ exponent`, rounded. -/
def roundAt (n d : Nat) (exponent : Int) : Nat :=
  if 0 ≤ exponent then roundQuotient n (d <<< exponent.toNat)
  else roundQuotient (n <<< (-exponent).toNat) d

/-- The exponent of the unit in which `n / d` has a significand of 53 bits, or the least exponent
that doubles have. -/
def unitExponent (n d : Nat) : Int :=
  let estimate : Int := (n.log2 : Int) - d.log2 - 53
  let isBelow := if 0 ≤ estimate then n < d <<< (estimate.toNat + 53)
    else n <<< (-estimate).toNat < d <<< 53
  max (if isBelow then estimate else estimate + 1) (-1074)

/-- The bits of the double nearest to `n / d`. A significand of 53 bits adds one to the field of the
exponent, and one that rounds up to the next power of two adds another. -/
def nearestBits (n d : Nat) : Nat :=
  if n = 0 then 0
  else
    let exponent := unitExponent n d
    let significand := roundAt n d exponent
    min ((exponent + 1074).toNat <<< 52 + significand) (2047 <<< 52)

/-- The double nearest to `digits * 10 ^ exponent`. Decimals far beyond the range of doubles are
infinite, and far below it zero. -/
def nearest (digits : Nat) (exponent : Int) : Float :=
  let magnitude : Int := exponent + (Nat.log2 digits : Int) / 3
  if digits = 0 || magnitude < -500 then 0
  else if 1000 < exponent then 1 / 0
  else Float.ofBits <| UInt64.ofNat <|
    if 0 ≤ exponent then nearestBits (digits * tenTo exponent.toNat) 1
    else nearestBits digits (tenTo (-exponent).toNat)

end PojoGraph.Decimal
