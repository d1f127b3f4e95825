import PojoGraph.Pojo.Basic

/-!
# Composed types whose branches are not resolved

While types are being resolved, the branches of a composition are known by name only.

## Main definitions

* `Stub` — an object type that names its branches.
* `Stub.branchNames` — all branch names, in the order `allOf`, `oneOf`, `anyOf`.
* `PlainMember` — a named schema that is just a type.
* `Classified` — what a named schema turns out to be.
-/

namespace PojoGraph

/-- The branches of a union by name, with the discriminator as written. -/
abbrev UnionSketch := Alternatives PojoName DiscriminatorSketch

/-- An object type that names the branches of its compositions. -/
structure Stub where
  name : PojoName
  description : Option String := none
  members : List Member := []
  requiredAdditional : List String := []
  additional : AdditionalProperties := .notAllowed
  constraints : Constraints := {}
  allOf : Option (List PojoName) := none
  oneOf : Option UnionSketch := none
  anyOf : Option UnionSketch := none
  deriving DecidableEq, Repr, Inhabited

namespace Stub

/-- The branches by the keyword that lists them. -/
def branchesOf (stub : Stub) : CompositionKind → Option (List PojoName)
  | .allOf => stub.allOf
  | .oneOf => stub.oneOf.map (·.branches)
  | .anyOf => stub.anyOf.map (·.branches)

/-- The discriminator of a keyword's branches. -/
def discriminatorOf (stub : Stub) : CompositionKind → Option DiscriminatorSketch
  | .allOf => none
  | .oneOf => stub.oneOf.bind (·.discriminator)
  | .anyOf => stub.anyOf.bind (·.discriminator)

/-- All branch names with the keyword that lists them, in order. -/
def branches (stub : Stub) : List (CompositionKind × PojoName) :=
  [CompositionKind.allOf, .oneOf, .anyOf].flatMap fun kind =>
    ((stub.branchesOf kind).getD []).map (kind, ·)

/-- All branch names in order. -/
def branchNames (stub : Stub) : List PojoName :=
  stub.branches.map (·.2)

/-- Whether the type has neither members nor `allOf` branches, and exactly one union. -/
def isPureUnion (stub : Stub) : Bool :=
  stub.members.isEmpty && stub.allOf.isNone && stub.oneOf.isSome != stub.anyOf.isSome

end Stub

/-- A named schema that is just a type, without a type of its own. -/
structure PlainMember where
  name : PojoName
  description : Option String := none
  type : DataType
  nullability : Nullability
  deriving DecidableEq, Repr, Inhabited

/-- The plain type kept as a generated type under its name. -/
def PlainMember.toAlias (plain : PlainMember) : Pojo :=
  .typeAlias plain.name plain.description plain.type plain.nullability

/-- What a named schema turns out to be. -/
inductive Classified where
  | pojo (pojo : Pojo)
  | stub (stub : Stub)
  | plain (plain : PlainMember)
  deriving Inhabited

namespace Classified

/-- The name of the schema. -/
def name : Classified → PojoName
  | pojo p => p.name
  | stub s => s.name
  | plain m => m.name

/-- The word for what it is. -/
def kind : Classified → String
  | pojo p => p.kind
  | stub _ => "composed stub"
  | plain _ => "plain member"

end Classified

end PojoGraph
