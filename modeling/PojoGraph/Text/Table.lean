/-!
# Ascending tables

A property of characters is written down as the ascending list of code points at which
its value changes. `rank` finds, by halving, how many entries of such a list are at most a
given number; a set of code points is then the numbers of odd rank.

## Main definitions

* `rank table n` — how many entries of an ascending table are at most `n`.
* `isWithin spans n` — whether `n` lies in one of the half-open spans that the entries bound.
-/

namespace PojoGraph.Text

/-- Halving between two positions: the entries before `low` are at most `n`, those from
`high` on are larger. -/
def rankBetween (table : Array Nat) (n low high : Nat) : Nat :=
  if low < high then
    let middle := (low + high) / 2
    if table.getD middle 0 ≤ n then rankBetween table n (middle + 1) high
    else rankBetween table n low middle
  else low
termination_by high - low

/-- How many entries of an ascending table are at most `n`. -/
def rank (table : Array Nat) (n : Nat) : Nat :=
  rankBetween table n 0 table.size

/-- Whether `n` lies in one of the spans `[first, past)` listed in ascending order: an odd
number of bounds has then been passed. -/
def isWithin (spans : Array Nat) (n : Nat) : Bool :=
  rank spans n % 2 == 1

end PojoGraph.Text
