import PojoGraph.Proofs.PojoSet.Revisions

/-!
# What renaming changes

Renaming a generated type renames the names in it, in branches to any depth as at the top, and
leaves all else as it is. To say so place by place, a place is given by the way to it: for each
branch on the way the keyword of its composition and its number there. A revised type has the
revised branch at each place where the type has a branch. So it is enough to compare what stands
at one place with what stands there after renaming, branches left out.

## Main definitions

* `Pojo.at?` — what stands at a place of a generated type.
* `DataType.IsRenamed`, `Pojo.IsRenamed` — two types that differ in names only, and how.

## Main statements

* `Pojo.at?_revise` — a revision revises what stands at each place.
* `renaming_is_functorial` — renaming respects identity and composition, and changes names only.
-/

namespace PojoGraph

/-! ## Places -/

/-- The branches of the composition by a keyword, none if there is no such composition. -/
def ObjectPojo.branchesOf (object : ObjectPojo) : CompositionKind → List ObjectPojo
  | .allOf => object.allOf.getD []
  | .oneOf => object.oneOf.elim [] (·.branches)
  | .anyOf => object.anyOf.elim [] (·.branches)

theorem ObjectPojo.branchesOf_revise (r : Revision) (object : ObjectPojo) (kind : CompositionKind) :
    (object.revise r).branchesOf kind = (object.branchesOf kind).map (revise r) := by
  rw [revise_eq]
  cases kind with
  | allOf => cases h : object.allOf <;> simp [branchesOf, h]
  | oneOf => cases h : object.oneOf <;> simp [branchesOf, h, Alternatives.revise]
  | anyOf => cases h : object.anyOf <;> simp [branchesOf, h, Alternatives.revise]

namespace Pojo

/-- The branches of the composition by a keyword, none if there is no such composition. -/
def branchesOf : Pojo → CompositionKind → List ObjectPojo
  | object o, kind => o.branchesOf kind
  | composed _ _ unionKind union, kind =>
    if unionKind.composition = kind then union.branches else []
  | array .., _ => []
  | enum .., _ => []
  | freeForm .., _ => []
  | typeAlias .., _ => []

/-- What stands at a place: the type itself at the top, and else a branch, to any depth. -/
def at? (pojo : Pojo) : (place : List (CompositionKind × Nat)) → Option Pojo
  | [] => some pojo
  | (kind, number) :: place =>
    (pojo.branchesOf kind)[number]?.bind fun branch => (Pojo.object branch).at? place

theorem branchesOf_revise (r : Revision) (pojo : Pojo) (kind : CompositionKind) :
    (pojo.revise r).branchesOf kind = (pojo.branchesOf kind).map (ObjectPojo.revise r) := by
  cases pojo with
  | object o => exact o.branchesOf_revise r kind
  | composed name description unionKind union =>
    simp only [revise, branchesOf, Alternatives.revise]
    split <;> rfl
  | _ => rfl

/-- **A revision revises what stands at each place**, and puts nothing at others. -/
theorem at?_revise (r : Revision) (pojo : Pojo) (place : List (CompositionKind × Nat)) :
    (pojo.revise r).at? place = (pojo.at? place).map (revise r) := by
  induction place generalizing pojo with
  | nil => rfl
  | cons first place ih =>
    obtain ⟨kind, number⟩ := first
    rw [at?, at?, branchesOf_revise, List.getElem?_map]
    cases (pojo.branchesOf kind)[number]? with
    | none => rfl
    | some branch => exact ih (.object branch)

end Pojo

/-! ## Names changed and nothing else -/

/-- The second type is the first with another name in each reference, given by `f`. Shapes, scalars,
enums, constraints and classes are the same in both. -/
inductive DataType.IsRenamed (f : PojoName → PojoName) : DataType → DataType → Prop where
  | reference (name : PojoName) (traits : Traits) :
    IsRenamed f (.leaf (.object name) traits) (.leaf (.object (f name)) traits)
  | leaf {leaf : Leaf} (h : ∀ name, leaf ≠ .object name) (traits : Traits) :
    IsRenamed f (.leaf leaf traits) (.leaf leaf traits)
  | list {item item' : DataType} (hitem : IsRenamed f item item') (traits : Traits) :
    IsRenamed f (.list item traits) (.list item' traits)
  | map {key key' value value' : DataType} (hkey : IsRenamed f key key')
      (hvalue : IsRenamed f value value') (traits : Traits) :
    IsRenamed f (.map key value traits) (.map key' value' traits)

/-- The members differ in the names that their types refer to, which `f` gives. -/
structure Member.IsRenamed (f : PojoName → PojoName) (member member' : Member) : Prop where
  name : member'.name = member.name
  description : member'.description = member.description
  type : member.type.IsRenamed f member'.type
  necessity : member'.necessity = member.necessity
  nullability : member'.nullability = member.nullability
  state : member'.state = member.state

/-- The discriminators differ in the names of the branches selected, which `f` gives. -/
structure Discriminator.IsRenamed (f : PojoName → PojoName)
    (discriminator discriminator' : Discriminator) : Prop where
  property : discriminator'.property = discriminator.property
  values : discriminator'.entries.map (·.value) = discriminator.entries.map (·.value)
  targets : discriminator'.targets = discriminator.targets.map f

/-- The objects, their branches left out, differ in names, which `f` gives. -/
structure ObjectPojo.IsRenamed (f : PojoName → PojoName) (object object' : ObjectPojo) : Prop where
  name : object'.name = f object.name
  description : object'.description = object.description
  members : List.Forall₂ (Member.IsRenamed f) object.members object'.members
  requiredAdditional : object'.requiredAdditional = object.requiredAdditional
  additional : Option.Rel (DataType.IsRenamed f) object.additional.type? object'.additional.type?
  constraints : object'.constraints = object.constraints
  compositions : ∀ kind, object'.isComposedBy kind = object.isComposedBy kind
  oneOf : Option.Rel (Discriminator.IsRenamed f) (object.oneOf.bind (·.discriminator))
    (object'.oneOf.bind (·.discriminator))
  anyOf : Option.Rel (Discriminator.IsRenamed f) (object.anyOf.bind (·.discriminator))
    (object'.anyOf.bind (·.discriminator))

/-- The generated types, their branches left out, differ in names, which `f` gives. -/
inductive Pojo.IsRenamed (f : PojoName → PojoName) : Pojo → Pojo → Prop where
  | object {object object' : ObjectPojo} (h : object.IsRenamed f object') :
    IsRenamed f (.object object) (.object object')
  | array (name : PojoName) (description : Option String) {value value' : Member}
      (hvalue : value.IsRenamed f value') :
    IsRenamed f (.array name description value) (.array (f name) description value')
  | enum (name : PojoName) (description : Option String) (values : List EnumValue) :
    IsRenamed f (.enum name description values) (.enum (f name) description values)
  | composed (name : PojoName) (description : Option String) (kind : UnionKind)
      {union union' : Alternatives ObjectPojo Discriminator}
      (hdiscriminator : Option.Rel (Discriminator.IsRenamed f) union.discriminator
        union'.discriminator) :
    IsRenamed f (.composed name description kind union)
      (.composed (f name) description kind union')
  | freeForm (name : PojoName) (description : Option String) (constraints : Constraints) :
    IsRenamed f (.freeForm name description constraints)
      (.freeForm (f name) description constraints)
  | typeAlias (name : PojoName) (description : Option String) {type type' : DataType}
      (htype : type.IsRenamed f type') (nullability : Nullability) :
    IsRenamed f (.typeAlias name description type nullability)
      (.typeAlias (f name) description type' nullability)

theorem rel_map_right {α β : Type} {R : α → β → Prop} {g : α → β} (h : ∀ a, R a (g a))
    (a? : Option α) : Option.Rel R a? (a?.map g) := by
  cases a? with
  | none => exact .none
  | some a => exact .some (h a)

section

variable (f : PojoName → PojoName)

theorem DataType.isRenamed_rename (type : DataType) : type.IsRenamed f (type.rename f) := by
  induction type with
  | leaf leaf traits =>
    cases leaf with
    | object name => exact .reference name traits
    | _ => exact .leaf (fun _ h => by cases h) traits
  | list item traits ih => exact .list ih traits
  | map key value traits ihkey ihvalue => exact .map ihkey ihvalue traits

theorem Member.isRenamed_rename (member : Member) : member.IsRenamed f (member.rename f) where
  name := rfl
  description := rfl
  type := member.type.isRenamed_rename f
  necessity := rfl
  nullability := rfl
  state := rfl

theorem Discriminator.isRenamed_rename (discriminator : Discriminator) :
    discriminator.IsRenamed f (discriminator.rename f) where
  property := rfl
  values := by simp [rename]
  targets := targets_rename f discriminator

theorem ObjectPojo.isRenamed_rename (object : ObjectPojo) :
    object.IsRenamed f (object.revise (.rename f)) := by
  have hunion : ∀ union : Option (Alternatives ObjectPojo Discriminator),
      Option.Rel (Discriminator.IsRenamed f) (union.bind (·.discriminator))
        ((union.map (·.revise (.rename f))).bind (·.discriminator)) := by
    intro union
    cases union with
    | none => exact .none
    | some union => exact rel_map_right (Discriminator.isRenamed_rename f) union.discriminator
  rw [revise_eq]
  constructor
  case members =>
    exact List.forall₂_map_right_iff.mpr
      (List.forall₂_same.mpr fun member _ => member.isRenamed_rename f)
  case additional =>
    cases object.additional with
    | notAllowed => exact .none
    | allowed type => exact .some (type.isRenamed_rename f)
  case compositions =>
    intro kind
    cases kind <;> simp [isComposedBy]
  case oneOf => exact hunion object.oneOf
  case anyOf => exact hunion object.anyOf
  all_goals rfl

/-- **Renaming changes names only**, at the top of a type. -/
theorem Pojo.isRenamed_rename (pojo : Pojo) : pojo.IsRenamed f (pojo.rename f) := by
  cases pojo with
  | object object => exact .object (object.isRenamed_rename f)
  | array name description value => exact .array name description (value.isRenamed_rename f)
  | enum name description values => exact .enum name description values
  | composed name description kind union =>
    exact .composed name description kind
      (rel_map_right (Discriminator.isRenamed_rename f) union.discriminator)
  | freeForm name description constraints => exact .freeForm name description constraints
  | typeAlias name description type nullability =>
    exact .typeAlias name description (type.isRenamed_rename f) nullability

end

/-- **Renaming is functorial, and complete.** Renaming each name to itself changes nothing, renaming
twice is renaming by the composition, and a renamed type refers to the renamed names, in their
order. At each place, in branches to any depth as at the top, a renamed type has what the type has
there, with its own name and the targets of its discriminators renamed. All else that stands there
is as it has been: names, descriptions and states of members, values of discriminators, further
required names, constraints and classes. -/
theorem renaming_is_functorial (f g : PojoName → PojoName) (pojo : Pojo) :
    pojo.rename id = pojo
      ∧ (pojo.rename f).rename g = pojo.rename (g ∘ f)
      ∧ (pojo.rename f).references = pojo.references.map f
      ∧ (pojo.rename f).name = f pojo.name
      ∧ ∀ place, Option.Rel (Pojo.IsRenamed f) (pojo.at? place) ((pojo.rename f).at? place) := by
  refine ⟨pojo.rename_id, pojo.rename_rename f g, pojo.references_rename f, pojo.name_rename f,
    fun place => ?_⟩
  rw [Pojo.rename, Pojo.at?_revise]
  exact rel_map_right (Pojo.isRenamed_rename f) (pojo.at? place)

end PojoGraph
