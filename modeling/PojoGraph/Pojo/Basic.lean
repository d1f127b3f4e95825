import PojoGraph.Discriminator
import PojoGraph.Member

/-!
# Generated types

A pojo is the description of one generated type. An object has members, may admit further
properties, and may be composed of other objects: it contains the objects of its `allOf`, and
its values are instances of one or of any of the branches of its unions. Branches are embedded
in full, to any depth.

## Main definitions

* `Alternatives` — branches with an optional discriminator.
* `ObjectPojo`, `Pojo` — objects, and generated types of all kinds.
* `ObjectPojo.branches` — the objects embedded directly in an object.
* `ObjectPojo.references`, `Pojo.references` — the names that member types refer to, at any
  depth.
-/

namespace PojoGraph

/-- The composition keywords. -/
inductive CompositionKind where
  | allOf
  | oneOf
  | anyOf
  deriving DecidableEq, Repr, Inhabited

/-- The keyword itself. -/
def CompositionKind.keyword : CompositionKind → String
  | allOf => "allOf"
  | oneOf => "oneOf"
  | anyOf => "anyOf"

/-- The part of a name that an inline branch gets from its keyword. -/
def CompositionKind.tag : CompositionKind → String
  | allOf => "AllOf"
  | oneOf => "OneOf"
  | anyOf => "AnyOf"

/-- The keywords of unions. -/
inductive UnionKind where
  | oneOf
  | anyOf
  deriving DecidableEq, Repr, Inhabited

/-- A union's keyword among all composition keywords. -/
def UnionKind.composition : UnionKind → CompositionKind
  | oneOf => .oneOf
  | anyOf => .anyOf

/-- The branches of a union and what tells them apart. -/
structure Alternatives (β δ : Type) where
  branches : List β
  discriminator : Option δ
  deriving DecidableEq, Repr, Inhabited

/-- Whether an object admits properties beyond its members. -/
inductive AdditionalProperties where
  | notAllowed
  | allowed (type : DataType)
  deriving DecidableEq, Repr, Inhabited

namespace AdditionalProperties

/-- Properties of type `type` are allowed; any value is, where the type is not known. -/
def ofType (type : DataType) : AdditionalProperties :=
  if type.isUnmapped then .allowed .freeForm else .allowed type

/-- Whether further properties are allowed. -/
def isAllowed : AdditionalProperties → Bool
  | notAllowed => false
  | allowed _ => true

/-- The type of further properties. -/
def type? : AdditionalProperties → Option DataType
  | notAllowed => none
  | allowed type => some type

/-- The policy with the type of further properties changed. -/
def map (f : DataType → DataType) : AdditionalProperties → AdditionalProperties
  | notAllowed => notAllowed
  | allowed type => allowed (f type)

/-- The names that the type of further properties refers to. -/
def references : AdditionalProperties → List PojoName
  | notAllowed => []
  | allowed type => type.references

end AdditionalProperties

/-- An object type. A composition that is present has at least one branch. -/
structure ObjectPojo where
  name : PojoName
  description : Option String := none
  members : List Member := []
  /-- Required names that no property of the schema declares. -/
  requiredAdditional : List String := []
  additional : AdditionalProperties := .notAllowed
  constraints : Constraints := {}
  allOf : Option (List ObjectPojo) := none
  oneOf : Option (Alternatives ObjectPojo Discriminator) := none
  anyOf : Option (Alternatives ObjectPojo Discriminator) := none
  deriving Inhabited

/-- A generated type. -/
inductive Pojo where
  | object (object : ObjectPojo)
  /-- A named array, represented by a member that holds its type. -/
  | array (name : PojoName) (description : Option String) (value : Member)
  | enum (name : PojoName) (description : Option String) (values : List EnumValue)
  /-- A union and nothing else. -/
  | composed (name : PojoName) (description : Option String) (kind : UnionKind)
      (union : Alternatives ObjectPojo Discriminator)
  /-- An object without members that admits anything. -/
  | freeForm (name : PojoName) (description : Option String) (constraints : Constraints)
  /-- A type under a name of its own. -/
  | typeAlias (name : PojoName) (description : Option String) (type : DataType)
      (nullability : Nullability)
  deriving Inhabited

namespace ObjectPojo

/-- The branches of the compositions, in the order `allOf`, `oneOf`, `anyOf`. -/
def branches (object : ObjectPojo) : List ObjectPojo :=
  object.allOf.getD [] ++ (object.oneOf.elim [] (·.branches))
    ++ (object.anyOf.elim [] (·.branches))

/-- Whether the object is composed by a keyword. -/
def isComposedBy (object : ObjectPojo) : CompositionKind → Bool
  | .allOf => object.allOf.isSome
  | .oneOf => object.oneOf.isSome
  | .anyOf => object.anyOf.isSome

/-- The member of a name. -/
def member? (object : ObjectPojo) (name : String) : Option Member :=
  object.members.find? (·.name == name)

/-- The names that the members and further properties refer to, branches left out. -/
def ownReferences (object : ObjectPojo) : List PojoName :=
  object.members.flatMap (·.type.references) ++ object.additional.references

mutual

/-- The names referred to by the object and then by its branches, at any depth. -/
def references : ObjectPojo → List PojoName
  | ⟨name, description, members, requiredAdditional, additional, constraints,
      allOf, oneOf, anyOf⟩ =>
    ownReferences ⟨name, description, members, requiredAdditional, additional, constraints,
      none, none, none⟩
    ++ (match allOf with
      | none => []
      | some branches => referencesAll branches)
    ++ (match oneOf with
      | none => []
      | some ⟨branches, _⟩ => referencesAll branches)
    ++ (match anyOf with
      | none => []
      | some ⟨branches, _⟩ => referencesAll branches)

/-- The names referred to by a list of objects. -/
def referencesAll : List ObjectPojo → List PojoName
  | [] => []
  | object :: rest => object.references ++ referencesAll rest

end

theorem referencesAll_eq (objects : List ObjectPojo) :
    referencesAll objects = objects.flatMap references := by
  induction objects with
  | nil => rfl
  | cons object rest ih => simp [referencesAll, ih]

/-- An object refers to what its own types refer to, then to what its branches refer to. -/
theorem references_eq (object : ObjectPojo) :
    object.references = object.ownReferences ++ object.branches.flatMap references := by
  obtain ⟨name, description, members, requiredAdditional, additional, constraints,
    allOf, oneOf, anyOf⟩ := object
  rcases allOf with _ | allOf <;> rcases oneOf with _ | ⟨oneOf, _⟩ <;>
    rcases anyOf with _ | ⟨anyOf, _⟩ <;>
    simp [references, ownReferences, branches, referencesAll_eq]

end ObjectPojo

namespace Pojo

/-- The name of the type. -/
def name : Pojo → PojoName
  | object o => o.name
  | array name .. => name
  | enum name .. => name
  | composed name .. => name
  | freeForm name .. => name
  | typeAlias name .. => name

/-- The description of the type. -/
def description : Pojo → Option String
  | object o => o.description
  | array _ description _ => description
  | enum _ description _ => description
  | composed _ description .. => description
  | freeForm _ description _ => description
  | typeAlias _ description .. => description

/-- The word for the kind of the type. -/
def kind : Pojo → String
  | object _ => "object"
  | array .. => "array"
  | enum .. => "enum"
  | composed .. => "composed"
  | freeForm .. => "free_form"
  | typeAlias .. => "alias"

/-- The object, if the type is one. -/
def object? : Pojo → Option ObjectPojo
  | object o => some o
  | _ => none

/-- The names that the types in a pojo refer to, at any depth, in order. -/
def references : Pojo → List PojoName
  | object o => o.references
  | array _ _ value => value.type.references
  | enum .. => []
  | composed _ _ _ union => union.branches.flatMap ObjectPojo.references
  | freeForm .. => []
  | typeAlias _ _ type _ => type.references

/-- The discriminator by which instances are dispatched: that of the union, or of an object's
`oneOf`, or of its `anyOf`. -/
def discriminator? : Pojo → Option Discriminator
  | composed _ _ _ union => union.discriminator
  | object o => o.oneOf.bind (·.discriminator) <|> o.anyOf.bind (·.discriminator)
  | _ => none

end Pojo

end PojoGraph
