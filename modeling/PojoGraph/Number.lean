import PojoGraph.Decimal.Layout

/-!
# Numbers of a document

A number is kept in the kind in which it is written: an integer stays exact, everything else is
a double.

## Main definitions

* `signedBound`, `unsignedBound` — the bounds of integers of 64 bits.
* `Number` — an integer or a double.
* `Number.text` — its written form.
* `DecimalLiteral`, `Number.ofLiteral?` — a written number, and the number it denotes.
-/

namespace PojoGraph

/-- The signed integers of 64 bits lie below this bound, `2 ^ 63`, and not below its negative. -/
def signedBound : Nat := 0x8000000000000000

/-- The natural numbers of 64 bits lie below this bound, `2 ^ 64`. -/
def unsignedBound : Nat := 0x10000000000000000

/-- A number of a document. Integers lie between `-2 ^ 63` and `2 ^ 64 - 1`. -/
inductive Number where
  | integer (value : Int)
  | double (value : Float)
  deriving DecidableEq, Inhabited

/-- Doubles are written with the fewest digits that identify them, positionally from `1e-5` up
to below `1e16`, otherwise with a signed exponent. -/
def doubleLayout : Decimal.Layout where
  plainFrom := -5
  plainBelow := 16
  positiveMark := "e+"
  negativeMark := "e-"

namespace Number

/-- The written form. -/
def text : Number → String
  | integer value => toString value
  | double value => doubleLayout.render value

/-- Whether the number is other than infinite and not-a-number. -/
def isFinite : Number → Bool
  | integer _ => true
  | double value => value.isFinite

/-- The value of a natural number. -/
def natural? : Number → Option Nat
  | integer value => if 0 ≤ value then some value.toNat else none
  | double _ => none

/-- The value of an integer that fits 64 signed bits. -/
def int64? : Number → Option Int
  | integer value => if -signedBound ≤ value && value < signedBound then some value else none
  | double _ => none

end Number

/-- A number as it is written: sign, digits before the point, digits after it if there is a
point, and the exponent if there is one. -/
structure DecimalLiteral where
  isNegative : Bool := false
  whole : List Nat
  fraction : Option (List Nat) := none
  /-- Whether the exponent is negative, and its digits. -/
  exponent : Option (Bool × List Nat) := none
  deriving Repr

namespace DecimalLiteral

/-- The number that decimal digits denote. -/
def natural (digits : List Nat) : Nat :=
  digits.foldl (fun n digit => n * 10 + digit) 0

/-- Appends digits to a significand as long as it stays below `2 ^ 64`; also the digits that
are left over. -/
def absorb (significand : Nat) : List Nat → Nat × List Nat
  | [] => (significand, [])
  | digit :: rest =>
    if significand * 10 + digit < unsignedBound then absorb (significand * 10 + digit) rest
    else (significand, digit :: rest)

/-- Scales `x` down by `10 ^ magnitude`, in steps of at most `1e308`. -/
def scaleDown (x : Float) (magnitude : Nat) : Float :=
  if magnitude ≤ 308 then x / Float.ofScientific 1 false magnitude
  else if x == 0 then x
  else scaleDown (x / 1e308) (magnitude - 308)
termination_by magnitude

/-- The double `significand * 10 ^ exponent`, computed by scaling the significand; nothing where
it is too large. The result is close to the exact value but not always the double nearest to
it. -/
def scaled? (significand : Nat) (exponent : Int) : Option Float :=
  let x := significand.toUInt64.toFloat
  if exponent < 0 then some (scaleDown x exponent.natAbs)
  else if 308 < exponent then if x == 0 then some x else none
  else
    let y := x * Float.ofScientific 1 false exponent.natAbs
    if y.isInf then none else some y

/-- The double of a literal, from the leading digits of its significand. Left-over digits before
the point count as zeros; those after it count for nothing. -/
def double? (literal : DecimalLiteral) : Option Float :=
  let (whole, leftOver) := absorb 0 literal.whole
  let fraction := literal.fraction.getD []
  let (significand, dropped) := absorb whole fraction
  let places := fraction.length - dropped.length
  let exponent : Int := match literal.exponent with
    | none => 0
    | some (true, digits) => -(natural digits : Int)
    | some (false, digits) => natural digits
  (scaled? significand (leftOver.length - places + exponent)).map fun x =>
    if literal.isNegative then -x else x

end DecimalLiteral

/-- The number that a literal denotes, if a double holds it. Without point and exponent it is an
integer where 64 bits hold it; minus zero is a double. -/
def Number.ofLiteral? (literal : DecimalLiteral) : Option Number :=
  let n := DecimalLiteral.natural literal.whole
  if literal.fraction.isNone && literal.exponent.isNone && !(literal.isNegative && n == 0)
      && n < (if literal.isNegative then signedBound + 1 else unsignedBound) then
    some (.integer (if literal.isNegative then -(n : Int) else n))
  else literal.double?.map .double

end PojoGraph
