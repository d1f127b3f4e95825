import PojoGraph.DataType

/-!
# Members

A member is one property of a generated type: its name, type, and whether it must be present
and may be null.

## Main definitions

* `Necessity`, `Nullability`, `MemberState` — the four states of presence and null.
* `Member` — a property.
* `Member.substitute`, `Member.describe` — a reference replaced, and a description taken over
  from the type referred to.
-/

namespace PojoGraph

/-- Whether a member must be present in an instance. -/
inductive Necessity where
  | required
  | optional
  deriving DecidableEq, Repr, Inhabited

/-- Whether a value may be null. -/
inductive Nullability where
  | nullable
  | notNullable
  deriving DecidableEq, Repr, Inhabited

/-- The necessity of a member that is or is not listed as required. -/
def Necessity.ofBool (required : Bool) : Necessity :=
  if required then .required else .optional

/-- The nullability of a schema that does or does not admit null. -/
def Nullability.ofBool (nullable : Bool) : Nullability :=
  if nullable then .nullable else .notNullable

/-- The states a member can be in; an optional nullable one has three of them at run time:
absent, null, or a value. -/
inductive MemberState where
  | requiredNotNullable
  | requiredNullable
  | optionalNotNullable
  | tristate
  deriving DecidableEq, Repr, Inhabited

/-- The displayed name of a state. -/
def MemberState.text : MemberState → String
  | requiredNotNullable => "RequiredNotNullable"
  | requiredNullable => "RequiredNullable"
  | optionalNotNullable => "OptionalNotNullable"
  | tristate => "Tristate"

/-- A property of a generated type. -/
structure Member where
  name : String
  description : Option String := none
  type : DataType
  necessity : Necessity
  nullability : Nullability
  deriving DecidableEq, Repr, Inhabited

/-- The description of a named type. -/
structure Described where
  name : PojoName
  description : String
  deriving DecidableEq, Repr, Inhabited

namespace Member

/-- The state that necessity and nullability make up. -/
def state (member : Member) : MemberState :=
  match member.necessity, member.nullability with
  | .required, .notNullable => .requiredNotNullable
  | .required, .nullable => .requiredNullable
  | .optional, .notNullable => .optionalNotNullable
  | .optional, .nullable => .tristate

/-- Whether the member must be present. -/
def isRequired (member : Member) : Bool :=
  member.necessity == .required

/-- Whether the value may be null. -/
def isNullable (member : Member) : Bool :=
  member.nullability == .nullable

/-- Whether the member's type is itself a reference to `name`, not only contains one. -/
def refersTo (member : Member) (name : PojoName) : Bool :=
  member.type.objectName?.any (·.isSame name)

/-- The member with the references of its type renamed. -/
def rename (f : PojoName → PojoName) (member : Member) : Member :=
  { member with type := member.type.rename f }

/-- The member with references replaced. If it is itself a reference and has no description,
it takes over that of the schema replaced. -/
def substitute (replacement : Replacement) (member : Member) : Member :=
  { member with
    type := member.type.substitute replacement
    description :=
      if member.refersTo replacement.name then member.description <|> replacement.description
      else member.description }

/-- The member with the description of the type it is a reference to, if it has none. -/
def describe (described : Described) (member : Member) : Member :=
  if member.refersTo described.name then
    { member with description := member.description <|> some described.description }
  else member

variable (member : Member)

@[simp] theorem name_rename (f : PojoName → PojoName) : (member.rename f).name = member.name := rfl

@[simp] theorem name_substitute (r : Replacement) : (member.substitute r).name = member.name := rfl

@[simp] theorem name_describe (d : Described) : (member.describe d).name = member.name := by
  unfold describe; split <;> rfl

@[simp] theorem state_rename (f : PojoName → PojoName) :
    (member.rename f).state = member.state := rfl

@[simp] theorem state_substitute (r : Replacement) :
    (member.substitute r).state = member.state := rfl

@[simp] theorem state_describe (d : Described) : (member.describe d).state = member.state := by
  unfold describe; split <;> rfl

end Member

end PojoGraph
