import PojoGraph.Decimal.Shortest

/-!
# Written decimals

How the digits of a decimal are laid out is decided by a few settings: for which magnitudes the
point stands among the digits, and what the exponent form looks like.

## Main definitions

* `Layout` — the settings.
* `Layout.render` — the text of a double.
-/

namespace PojoGraph.Decimal

/-- The settings of a written form. A number whose leading digit stands for `10 ^ e` is written
positionally when `plainFrom ≤ e < plainBelow`, and with an exponent otherwise. -/
structure Layout where
  plainFrom : Int
  plainBelow : Int
  /-- The text between the digits and a positive exponent. -/
  positiveMark : String
  /-- The text between the digits and the magnitude of a negative exponent. -/
  negativeMark : String
  deriving DecidableEq, Repr

/-- The digits with the point after the first `place` of them; zeros fill what is missing, and a
whole number ends in `.0`. -/
def placePoint (digits : List Char) (place : Int) : List Char :=
  if place ≤ 0 then
    '0' :: '.' :: (List.replicate (-place).toNat '0' ++ digits)
  else if digits.length ≤ place.toNat then
    digits ++ List.replicate (place.toNat - digits.length) '0' ++ ['.', '0']
  else digits.take place.toNat ++ '.' :: digits.drop place.toNat

namespace Layout

/-- The text of a decimal without a sign. -/
def renderScientific (layout : Layout) (d : Scientific) : String :=
  let digits := Nat.toDigits 10 d.digits
  let leading := if d.digits = 0 then 0 else d.exponent + digits.length - 1
  if layout.plainFrom ≤ leading && leading < layout.plainBelow then
    String.ofList (placePoint digits (leading + 1))
  else
    let mantissa := match digits with
      | first :: [] => [first]
      | first :: rest => first :: '.' :: rest
      | [] => []
    String.ofList mantissa
      ++ (if leading < 0 then layout.negativeMark else layout.positiveMark)
      ++ toString leading.natAbs

/-- The text of a finite double; the sign of zero is kept. -/
def render (layout : Layout) (x : Float) : String :=
  (if x.toBits.toNat >>> 63 == 0 then "" else "-")
    ++ layout.renderScientific (shortest (.ofFloat x))

end Layout

end PojoGraph.Decimal
