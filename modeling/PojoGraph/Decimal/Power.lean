/-!
# Powers of ten

The grids of decimals are scaled by powers of ten. Powers of two are shifts of bits and need no
name.

## Main definitions

* `tenTo` — the power of ten with an exponent.
-/

namespace PojoGraph.Decimal

/-- The power of ten with an exponent. -/
def tenTo (exponent : Nat) : Nat := Nat.pow 10 exponent

@[simp] theorem tenTo_zero : tenTo 0 = 1 := rfl

end PojoGraph.Decimal
