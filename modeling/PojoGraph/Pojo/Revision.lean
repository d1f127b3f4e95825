import PojoGraph.Pojo.Basic

/-!
# Revising generated types

Renaming, the replacement of references by types, and the attachment of descriptions change a
pojo at the same places: its names, its members and its further types, in branches to any depth
as at the top. A `Revision` says what happens at each of them.

## Main definitions

* `Revision` — what happens to names, members and types.
* `ObjectPojo.revise`, `Pojo.revise` — a revision carried out everywhere.
* `Pojo.rename`, `Pojo.substitute`, `Pojo.describe` — the three revisions in use.
-/

namespace PojoGraph

/-- What a revision does to each name of a pojo, each member, and each type outside members. -/
structure Revision where
  name : PojoName → PojoName
  member : Member → Member
  type : DataType → DataType

namespace Revision

/-- All names are changed, in types too. -/
def rename (f : PojoName → PojoName) : Revision where
  name := f
  member := Member.rename f
  type := DataType.rename f

/-- A reference is replaced by a type; names stay. -/
def substitute (replacement : Replacement) : Revision where
  name := id
  member := Member.substitute replacement
  type := DataType.substitute replacement

/-- Members take over the description of a type; names and types stay. -/
def describe (described : Described) : Revision where
  name := id
  member := Member.describe described
  type := id

end Revision

namespace ObjectPojo

mutual

/-- The object with a revision carried out in it and in its branches. -/
def revise (r : Revision) : ObjectPojo → ObjectPojo
  | ⟨name, description, members, requiredAdditional, additional, constraints,
      allOf, oneOf, anyOf⟩ =>
    ⟨r.name name, description, members.map r.member, requiredAdditional, additional.map r.type,
      constraints,
      match allOf with
        | none => none
        | some branches => some (reviseAll r branches),
      match oneOf with
        | none => none
        | some ⟨branches, discriminator⟩ =>
          some ⟨reviseAll r branches, discriminator.map (Discriminator.rename r.name)⟩,
      match anyOf with
        | none => none
        | some ⟨branches, discriminator⟩ =>
          some ⟨reviseAll r branches, discriminator.map (Discriminator.rename r.name)⟩⟩

/-- A list of objects, each with a revision carried out. -/
def reviseAll (r : Revision) : List ObjectPojo → List ObjectPojo
  | [] => []
  | object :: rest => object.revise r :: reviseAll r rest

end

theorem reviseAll_eq (r : Revision) (objects : List ObjectPojo) :
    reviseAll r objects = objects.map (revise r) := by
  induction objects with
  | nil => rfl
  | cons object rest ih => simp [reviseAll, ih]

end ObjectPojo

/-- The union with a revision carried out in its branches. -/
def Alternatives.revise (r : Revision) (union : Alternatives ObjectPojo Discriminator) :
    Alternatives ObjectPojo Discriminator :=
  ⟨union.branches.map (ObjectPojo.revise r), union.discriminator.map (·.rename r.name)⟩

namespace ObjectPojo

/-- A revision changes the object's own parts and revises each branch. -/
theorem revise_eq (r : Revision) (object : ObjectPojo) :
    object.revise r =
      { object with
        name := r.name object.name
        members := object.members.map r.member
        additional := object.additional.map r.type
        allOf := object.allOf.map (·.map (revise r))
        oneOf := object.oneOf.map (·.revise r)
        anyOf := object.anyOf.map (·.revise r) } := by
  obtain ⟨name, description, members, requiredAdditional, additional, constraints,
    allOf, oneOf, anyOf⟩ := object
  rcases allOf with _ | allOf <;> rcases oneOf with _ | ⟨oneOf, _⟩ <;>
    rcases anyOf with _ | ⟨anyOf, _⟩ <;>
    simp [revise, reviseAll_eq, Alternatives.revise]

@[simp] theorem name_revise (r : Revision) (object : ObjectPojo) :
    (object.revise r).name = r.name object.name := by
  rw [revise_eq]

@[simp] theorem members_revise (r : Revision) (object : ObjectPojo) :
    (object.revise r).members = object.members.map r.member := by
  rw [revise_eq]

@[simp] theorem branches_revise (r : Revision) (object : ObjectPojo) :
    (object.revise r).branches = object.branches.map (revise r) := by
  rw [revise_eq]
  rcases h₁ : object.allOf with _ | allOf <;> rcases h₂ : object.oneOf with _ | ⟨oneOf, _⟩ <;>
    rcases h₃ : object.anyOf with _ | ⟨anyOf, _⟩ <;>
    simp [branches, Alternatives.revise, h₁, h₂, h₃]

end ObjectPojo

namespace Pojo

/-- The pojo with a revision carried out in it and in its branches. -/
def revise (r : Revision) : Pojo → Pojo
  | object o => object (o.revise r)
  | array name description value => array (r.name name) description (r.member value)
  | enum name description values => enum (r.name name) description values
  | composed name description kind union =>
    composed (r.name name) description kind (union.revise r)
  | freeForm name description constraints => freeForm (r.name name) description constraints
  | typeAlias name description type nullability =>
    typeAlias (r.name name) description (r.type type) nullability

/-- The pojo with all its names and references renamed. -/
def rename (f : PojoName → PojoName) : Pojo → Pojo :=
  revise (.rename f)

/-- The pojo with references replaced by a type. -/
def substitute (replacement : Replacement) : Pojo → Pojo :=
  revise (.substitute replacement)

/-- The pojo with a type's description at the members that are references to it and have
none. -/
def describe (described : Described) : Pojo → Pojo :=
  revise (.describe described)

@[simp] theorem name_revise (r : Revision) (pojo : Pojo) :
    (pojo.revise r).name = r.name pojo.name := by
  cases pojo <;> simp [revise, name]

@[simp] theorem name_rename (f : PojoName → PojoName) (pojo : Pojo) :
    (pojo.rename f).name = f pojo.name :=
  name_revise _ pojo

@[simp] theorem name_substitute (replacement : Replacement) (pojo : Pojo) :
    (pojo.substitute replacement).name = pojo.name := by
  simp [substitute, Revision.substitute]

@[simp] theorem name_describe (described : Described) (pojo : Pojo) :
    (pojo.describe described).name = pojo.name := by
  simp [describe, Revision.describe]

@[simp] theorem description_revise (r : Revision) (pojo : Pojo) :
    (pojo.revise r).description = pojo.description := by
  cases pojo with
  | object o => rw [revise, description, ObjectPojo.revise_eq, description]
  | _ => rfl

end Pojo

end PojoGraph
