/-!
# Constraints on values

What a schema says about the values of a type beyond the type itself: numeric bounds, sizes,
patterns. Constraints are independent of whether a value must be present and whether it may be
null.

## Main definitions

* `Bound`, `Extent` — a decimal bound as written, and a range of counts with open ends.
* `Constraints` — all constraints of a type.
* `Constraints.labels` — their short written form.
-/

namespace PojoGraph

/-- A decimal bound, kept as the document writes it. -/
structure Bound where
  value : String
  inclusive : Bool
  deriving DecidableEq, Repr, Inhabited

/-- A range of counts; an end that is `none` is open. -/
structure Extent where
  least : Option Nat
  most : Option Nat
  deriving DecidableEq, Repr, Inhabited

namespace Extent

/-- The range between two ends; none at all if both are open. -/
def of? (least most : Option Nat) : Option Extent :=
  if least.isSome || most.isSome then some ⟨least, most⟩ else none

/-- The ends with two dots between them; an open end is left out. -/
def label (extent : Extent) : String :=
  (extent.least.map toString).getD "" ++ ".." ++ (extent.most.map toString).getD ""

end Extent

/-- The constraints of a type. -/
structure Constraints where
  min : Option Int := none
  max : Option Int := none
  decimalMin : Option Bound := none
  decimalMax : Option Bound := none
  multipleOf : Option String := none
  size : Option Extent := none
  pattern : Option String := none
  email : Bool := false
  propertyCount : Option Extent := none
  deriving DecidableEq, Repr, Inhabited

namespace Constraints

/-- Whether nothing is constrained. -/
def isEmpty (constraints : Constraints) : Bool :=
  constraints == {}

/-- The constraints with a size between two ends. Two open ends leave the size as it is. -/
def withSize (constraints : Constraints) (least most : Option Nat) : Constraints :=
  { constraints with size := Extent.of? least most <|> constraints.size }

/-- The constraints with a number of properties between two ends. Two open ends leave it as
it is. -/
def withPropertyCount (constraints : Constraints) (least most : Option Nat) : Constraints :=
  { constraints with propertyCount := Extent.of? least most <|> constraints.propertyCount }

/-- One label for each constraint that is set, in a fixed order. -/
def labels (constraints : Constraints) : List String :=
  [ constraints.min.map fun n => "min=" ++ toString n,
    constraints.max.map fun n => "max=" ++ toString n,
    constraints.decimalMin.map fun b => "decimal" ++ (if b.inclusive then ">=" else ">") ++ b.value,
    constraints.decimalMax.map fun b => "decimal" ++ (if b.inclusive then "<=" else "<") ++ b.value,
    constraints.multipleOf.map ("multipleOf=" ++ ·),
    constraints.size.map ("size=" ++ ·.label),
    constraints.pattern.map ("pattern=" ++ ·),
    if constraints.email then some "email" else none,
    constraints.propertyCount.map ("properties=" ++ ·.label) ].filterMap id

@[simp] theorem isEmpty_iff {constraints : Constraints} :
    constraints.isEmpty ↔ constraints = {} := by
  simp [isEmpty]

@[simp] theorem withSize_none (constraints : Constraints) :
    constraints.withSize none none = constraints := rfl

@[simp] theorem withPropertyCount_none (constraints : Constraints) :
    constraints.withPropertyCount none none = constraints := rfl

end Constraints

end PojoGraph
