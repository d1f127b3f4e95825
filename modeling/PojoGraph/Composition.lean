import PojoGraph.Fault
import PojoGraph.Stub

/-!
# Composed types with resolved branches

Once all branches of a stub are known as objects, the stub becomes a pojo. A type that is
nothing but one union becomes a composed pojo; everything else becomes an object, which gets the
members of its `allOf` branches in front of its own.

## Main definitions

* `Pojo.asBranch` — the object that a pojo is as a branch.
* `DiscriminatorSketch.resolve` — the table of a discriminator.
* `Stub.resolve` — the pojo of a stub, given its branches.
-/

namespace PojoGraph

/-- The object that a pojo is as a branch of a composition. Unions and free-form objects are
objects without members; other pojos are no branches. -/
def Pojo.asBranch : Pojo → Except Obstacle ObjectPojo
  | .object o => .ok o
  | .composed name description .oneOf union => .ok { name, description, oneOf := some union }
  | .composed name description .anyOf union => .ok { name, description, anyOf := some union }
  | .freeForm name description constraints =>
    .ok { name, description, additional := .allowed .freeForm, constraints }
  | .array .. => .error .array
  | .enum .. => .error .enum
  | .typeAlias .. => .error .typeAlias

/-- An object is its own branch. -/
@[simp] theorem Pojo.asBranch_object (object : ObjectPojo) :
    (Pojo.object object).asBranch = .ok object :=
  rfl

/-! ## Discriminators -/

namespace DiscriminatorSketch

variable (sketch : DiscriminatorSketch) (branches : List PojoName)

/-- The first value that is mapped to something other than a branch. -/
def stray? : Option (String × PojoName) :=
  (sketch.mapping.getD []).find? fun entry => !branches.any (·.isSame entry.2)

/-- The table over the given branches, in their order. With a mapping only branches that it
names take part; without one each branch is selected by its schema key. -/
def resolve : Discriminator where
  property := sketch.property
  entries := match sketch.mapping with
    | some mapping => branches.flatMap fun branch =>
        (mapping.filter (branch.isSame ·.2)).map fun entry => ⟨entry.1, branch⟩
    | none => branches.map fun branch => ⟨branch.raw, branch⟩

end DiscriminatorSketch

namespace UnionSketch

/-- What is wrong with the discriminator of a union, given its branches. -/
def faults (sketch : UnionSketch) (owner : PojoName) (branches : List ObjectPojo) : List Fault :=
  match sketch.discriminator.bind (·.stray? (branches.map (·.name))) with
  | some (value, target) => [.invalidMapping owner value target]
  | none => []

/-- The union with its branches. -/
def resolve (sketch : UnionSketch) (branches : List ObjectPojo) :
    Alternatives ObjectPojo Discriminator :=
  ⟨branches, sketch.discriminator.map (·.resolve (branches.map (·.name)))⟩

end UnionSketch

/-! ## Members -/

/-- The elements that repeat one further ahead, or one that has been seen. -/
def repeats : (seen : List String) → List String → List String
  | _, [] => []
  | seen, s :: rest => if s ∈ seen then s :: repeats seen rest else repeats (s :: seen) rest

theorem repeats_eq_nil_iff {seen texts : List String} :
    repeats seen texts = [] ↔ texts.Nodup ∧ ∀ s ∈ texts, s ∉ seen := by
  induction texts generalizing seen with
  | nil => simp [repeats]
  | cons s rest ih =>
    by_cases h : s ∈ seen <;> simp [repeats, h, ih]
    grind

/-! ## Stubs -/

/-- The objects that the branch names of a stub lead to, by the keyword that lists them. -/
structure Branches where
  allOf : Option (List ObjectPojo) := none
  oneOf : Option (List ObjectPojo) := none
  anyOf : Option (List ObjectPojo) := none
  deriving Inhabited

namespace Stub

variable (stub : Stub) (branches : Branches)

/-- The members of the `allOf` branches in order, then the stub's own. -/
def allMembers : List Member :=
  (branches.allOf.getD []).flatMap (·.members) ++ stub.members

/-- What keeps the stub from becoming a pojo: stray discriminator values, and members that
repeat a name. -/
def faults : List Fault :=
  (match stub.oneOf, branches.oneOf with
    | some sketch, some objects => UnionSketch.faults sketch stub.name objects
    | _, _ => [])
  ++ (match stub.anyOf, branches.anyOf with
    | some sketch, some objects => UnionSketch.faults sketch stub.name objects
    | _, _ => [])
  ++ (repeats [] ((stub.allMembers branches).map (·.name))).map (.ambiguousMember stub.name)

/-- A union with its branches. -/
def union (sketch : Option UnionSketch) (objects : Option (List ObjectPojo)) :
    Option (Alternatives ObjectPojo Discriminator) :=
  match sketch, objects with
  | some sketch, some objects => some (UnionSketch.resolve sketch objects)
  | _, _ => none

/-- Whether the stub is nothing but one union. -/
def isBareUnion : Bool :=
  stub.isPureUnion && !stub.additional.isAllowed && stub.requiredAdditional.isEmpty

/-- The object that the stub is with its branches. -/
def toObject : ObjectPojo where
  name := stub.name
  description := stub.description
  members := stub.allMembers branches
  requiredAdditional := stub.requiredAdditional
  additional := stub.additional
  constraints := stub.constraints
  allOf := branches.allOf.filter (!·.isEmpty)
  oneOf := union stub.oneOf branches.oneOf
  anyOf := union stub.anyOf branches.anyOf

/-- The pojo that the stub is with its branches. -/
def toPojo : Pojo :=
  match stub.isBareUnion, union stub.oneOf branches.oneOf, union stub.anyOf branches.anyOf with
  | true, some union, none => .composed stub.name stub.description .oneOf union
  | true, none, some union => .composed stub.name stub.description .anyOf union
  | _, _, _ => .object (stub.toObject branches)

/-- The pojo of a stub with its branches, or all that keeps it from becoming one. -/
def resolve : Except (List Fault) Pojo :=
  match stub.faults branches with
  | [] => .ok (stub.toPojo branches)
  | faults => .error faults

@[simp] theorem name_toPojo : (stub.toPojo branches).name = stub.name := by
  unfold toPojo; split <;> rfl

@[simp] theorem description_toPojo : (stub.toPojo branches).description = stub.description := by
  unfold toPojo; split <;> rfl

end Stub

end PojoGraph
