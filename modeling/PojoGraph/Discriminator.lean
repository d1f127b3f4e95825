import PojoGraph.Dictionary
import PojoGraph.Name

/-!
# Discriminators

A discriminator tells the branches of a union apart by the value of one property. As written on
a schema it may map values to schemas; resolved, it lists for each value the branch it selects.

## Main definitions

* `DiscriminatorSketch` — as written, targets given by name.
* `Discriminator` — resolved: a table of values and branches.
* `Discriminator.branchFor`, `Discriminator.valueFor` — the table read in both directions.
-/

namespace PojoGraph

/-- A discriminator whose branches are not resolved yet. Without a mapping each branch is
selected by its own schema key. -/
structure DiscriminatorSketch where
  property : String
  mapping : Option (Dictionary PojoName)
  deriving DecidableEq, Repr, Inhabited

/-- A value of the discriminating property and the branch it selects. -/
structure DispatchEntry where
  value : String
  branch : PojoName
  deriving DecidableEq, Repr, Inhabited

/-- A resolved discriminator. -/
structure Discriminator where
  property : String
  entries : List DispatchEntry
  deriving DecidableEq, Repr, Inhabited

/-- A value that selects no branch. -/
structure DispatchMismatch where
  property : String
  value : String
  deriving DecidableEq, Repr, Inhabited

/-- The text that reports a mismatch. -/
def DispatchMismatch.message (mismatch : DispatchMismatch) : String :=
  "invalid value '" ++ mismatch.value ++ "' for discriminator property '"
    ++ mismatch.property ++ "'"

namespace Discriminator

/-- The value that selects `branch`, if it takes part. -/
def valueFor (discriminator : Discriminator) (branch : PojoName) : Option String :=
  (discriminator.entries.find? (·.branch.isSame branch)).map (·.value)

/-- The branch that `value` selects. -/
def branchFor (discriminator : Discriminator) (value : String) :
    Except DispatchMismatch PojoName :=
  match discriminator.entries.find? (·.value == value) with
  | some entry => .ok entry.branch
  | none => .error ⟨discriminator.property, value⟩

/-- The branch that `value` selects, or `fallback` if it selects none. -/
def branchForOr (discriminator : Discriminator) (value : String) (fallback : PojoName) :
    PojoName :=
  match discriminator.branchFor value with
  | .ok branch => branch
  | .error _ => fallback

/-- The discriminator with its branches renamed. -/
def rename (f : PojoName → PojoName) (discriminator : Discriminator) : Discriminator :=
  { discriminator with
    entries := discriminator.entries.map fun entry => { entry with branch := f entry.branch } }

@[simp] theorem rename_id (discriminator : Discriminator) :
    discriminator.rename id = discriminator := by
  simp [rename]

end Discriminator

end PojoGraph
