import PojoGraph.Constraints
import PojoGraph.Name

/-!
# Data types

The type of a member, of an array's items or of a map's values. A type is a leaf or a container
of other types; each carries the constraints of its values, and a scalar may carry a class that
replaces it in generated code.

## Main definitions

* `StringFormat`, `Scalar`, `Leaf`, `DataType` — types.
* `DataType.references` — the generated types that a type refers to.
* `DataType.rename` — all references renamed.
* `Replacement`, `DataType.substitute` — one reference replaced by a type.
* `DataType.text` — the displayed form.
-/

namespace PojoGraph

/-! ## Scalars -/

/-- The formats of strings. -/
inductive StringFormat where
  | plain
  | date
  | dateTime
  | time
  | uuid
  | email
  | uri
  | url
  | binary
  | byte
  | password
  | other (keyword : String)
  deriving DecidableEq, Repr, Inhabited

namespace StringFormat

/-- The format that a `format` keyword denotes. -/
def ofKeyword? : Option String → StringFormat
  | none => plain
  | some "date" => date
  | some "date-time" => dateTime
  | some "time" => time
  | some "partial-time" => time
  | some "uuid" => uuid
  | some "email" => email
  | some "uri" => uri
  | some "url" => url
  | some "binary" => binary
  | some "byte" => byte
  | some "password" => password
  | some keyword => other keyword

/-- The keyword by which a format is known. -/
def keyword? : StringFormat → Option String
  | plain => none
  | date => some "date"
  | dateTime => some "date-time"
  | time => some "time"
  | uuid => some "uuid"
  | email => some "email"
  | uri => some "uri"
  | url => some "url"
  | binary => some "binary"
  | byte => some "byte"
  | password => some "password"
  | other keyword => some keyword

/-- The displayed form of a string of this format. -/
def text : StringFormat → String
  | plain => "String"
  | date => "Date"
  | dateTime => "DateTime"
  | time => "Time"
  | uuid => "Uuid"
  | email => "Email"
  | uri => "Uri"
  | url => "Url"
  | binary => "Binary"
  | byte => "Byte"
  | password => "Password"
  | other keyword => "String(" ++ keyword ++ ")"

end StringFormat

/-- The widths of integers. -/
inductive IntegerWidth where
  | integer
  | long
  deriving DecidableEq, Repr, Inhabited

/-- The precisions of numbers. -/
inductive Precision where
  | float
  | double
  deriving DecidableEq, Repr, Inhabited

/-- Types of single values. -/
inductive Scalar where
  | string (format : StringFormat)
  | integer (width : IntegerWidth)
  | number (precision : Precision)
  | boolean
  deriving DecidableEq, Repr, Inhabited

namespace Scalar

/-- The name by which settings know a scalar. Strings of a format without a name of its own are
known as strings. -/
def canonicalName : Scalar → String
  | string .plain => "string"
  | string (.other _) => "string"
  | string format => format.keyword?.getD "string"
  | integer .integer => "integer"
  | integer .long => "long"
  | number .float => "float"
  | number .double => "double"
  | boolean => "boolean"

/-- The displayed form. -/
def text : Scalar → String
  | string format => format.text
  | integer .integer => "Integer"
  | integer .long => "Long"
  | number .float => "Float"
  | number .double => "Double"
  | boolean => "Boolean"

end Scalar

/-! ## Enums -/

/-- A value of an enum. -/
structure EnumValue where
  value : String
  description : Option String := none
  deriving DecidableEq, Repr, Inhabited

namespace EnumValue

/-- The values in order, each once and without a description. -/
def ofValues (values : List String) : List EnumValue :=
  values.eraseDups.map fun value => { value }

end EnumValue

/-! ## Types -/

/-- A class that stands for a scalar in generated code, and what to import for it. -/
structure ClassOverride where
  className : String
  importName : Option String
  deriving DecidableEq, Repr, Inhabited

/-- What any type carries besides its shape. -/
structure Traits where
  constraints : Constraints := {}
  classOverride : Option ClassOverride := none
  deriving DecidableEq, Repr, Inhabited

/-- Types that contain no types. -/
inductive Leaf where
  | scalar (scalar : Scalar)
  /-- A reference to a generated type. -/
  | object (name : PojoName)
  | enum (values : List EnumValue)
  /-- Any value whatsoever. -/
  | freeForm
  /-- Stands in for a schema that no rule recognizes. -/
  | unmapped
  deriving DecidableEq, Repr, Inhabited

/-- A type: a leaf, a list of items, or a map from keys to values. -/
inductive DataType where
  | leaf (leaf : Leaf) (traits : Traits)
  | list (item : DataType) (traits : Traits)
  | map (key value : DataType) (traits : Traits)
  deriving DecidableEq, Repr, Inhabited

/-- A type that takes the place of references to a name, with the description of the schema it
comes from. -/
structure Replacement where
  name : PojoName
  description : Option String
  type : DataType
  deriving DecidableEq, Repr, Inhabited

namespace DataType

/-- A scalar with constraints. -/
def scalar (scalar : Scalar) (constraints : Constraints := {}) : DataType :=
  leaf (.scalar scalar) { constraints }

/-- A reference to a generated type. -/
def object (name : PojoName) : DataType :=
  leaf (.object name) {}

/-- Any value whatsoever. -/
def freeForm (constraints : Constraints := {}) : DataType :=
  leaf .freeForm { constraints }

/-- The type of a schema that no rule recognizes. -/
def unmapped : DataType :=
  leaf .unmapped {}

/-- A map from strings, as JSON objects are. -/
def mapOf (value : DataType) (constraints : Constraints := {}) : DataType :=
  map (scalar (.string .plain)) value { constraints }

/-- What the type carries besides its shape. -/
def traits : DataType → Traits
  | leaf _ traits => traits
  | list _ traits => traits
  | map _ _ traits => traits

/-- The type with other traits. -/
def withTraits (traits : Traits) : DataType → DataType
  | leaf l _ => leaf l traits
  | list item _ => list item traits
  | map key value _ => map key value traits

/-- The type with a class of its own in generated code. -/
def withOverride (type : DataType) (classOverride : Option ClassOverride) : DataType :=
  type.withTraits { type.traits with classOverride }

/-- The type with other constraints. -/
def withConstraints (type : DataType) (constraints : Constraints) : DataType :=
  type.withTraits { type.traits with constraints }

/-- Whether no rule recognized the schema of this type. -/
def isUnmapped : DataType → Bool
  | leaf .unmapped _ => true
  | _ => false

/-- The generated type that this type is a reference to. -/
def objectName? : DataType → Option PojoName
  | leaf (.object name) _ => some name
  | _ => none

/-- The type of the items, if this is a list. -/
def item? : DataType → Option DataType
  | list item _ => some item
  | _ => none

/-- The name by which settings know the type, if it is a scalar. -/
def canonicalName? : DataType → Option String
  | leaf (.scalar scalar) _ => some scalar.canonicalName
  | _ => none

/-- The keyword of the format, if this is a string that has one. -/
def format? : DataType → Option String
  | leaf (.scalar (.string format)) _ => format.keyword?
  | _ => none

/-- The generated types referred to, in order, repetitions included. -/
def references : DataType → List PojoName
  | leaf (.object name) _ => [name]
  | leaf _ _ => []
  | list item _ => item.references
  | map key value _ => key.references ++ value.references

/-- The type with each reference renamed. -/
def rename (f : PojoName → PojoName) : DataType → DataType
  | leaf (.object name) traits => leaf (.object (f name)) traits
  | leaf l traits => leaf l traits
  | list item traits => list (item.rename f) traits
  | map key value traits => map (key.rename f) (value.rename f) traits

/-- The type with each reference to the replaced name exchanged for the replacement's type,
which keeps its own traits. Containers keep theirs. -/
def substitute (replacement : Replacement) : DataType → DataType
  | leaf (.object name) traits =>
    if name.isSame replacement.name then replacement.type else leaf (.object name) traits
  | leaf l traits => leaf l traits
  | list item traits => list (item.substitute replacement) traits
  | map key value traits =>
    map (key.substitute replacement) (value.substitute replacement) traits

/-- The text of a type that no class overrides is `shape`. -/
def orOverride (traits : Traits) (shape : String) : String :=
  match traits.classOverride with
  | some override => override.className
  | none => shape

/-- The displayed form: the class that overrides the type, or its shape. -/
def text : DataType → String
  | leaf (.scalar scalar) traits => orOverride traits scalar.text
  | leaf (.object name) traits => orOverride traits name.text
  | leaf (.enum values) traits =>
    orOverride traits ("Enum[" ++ Text.joinWith ", " (values.map (·.value)) ++ "]")
  | leaf .freeForm traits => orOverride traits "Any"
  | leaf .unmapped traits => orOverride traits "NoType"
  | list item traits => orOverride traits ("List<" ++ item.text ++ ">")
  | map key value traits =>
    orOverride traits ("Map<" ++ key.text ++ ", " ++ value.text ++ ">")

instance : ToString DataType := ⟨text⟩

/-! ## References -/

@[simp] theorem references_rename (f : PojoName → PojoName) (type : DataType) :
    (type.rename f).references = type.references.map f := by
  induction type with
  | leaf l _ => cases l <;> simp [rename, references]
  | list _ _ ih => simp [rename, references, ih]
  | map _ _ _ ihk ihv => simp [rename, references, ihk, ihv]

@[simp] theorem rename_id (type : DataType) : type.rename id = type := by
  induction type with
  | leaf l _ => cases l <;> simp [rename]
  | list _ _ ih => simp [rename, ih]
  | map _ _ _ ihk ihv => simp [rename, ihk, ihv]

theorem rename_rename (f g : PojoName → PojoName) (type : DataType) :
    (type.rename f).rename g = type.rename (g ∘ f) := by
  induction type with
  | leaf l _ => cases l <;> simp [rename]
  | list _ _ ih => simp [rename, ih]
  | map _ _ _ ihk ihv => simp [rename, ihk, ihv]

/-- A reference is replaced, where it stands, by what its replacement refers to. -/
theorem references_substitute (replacement : Replacement) (type : DataType) :
    (type.substitute replacement).references =
      type.references.flatMap fun name =>
        if name.isSame replacement.name then replacement.type.references else [name] := by
  induction type with
  | leaf l _ =>
    cases l with
    | object name =>
      by_cases h : name.key = replacement.name.key <;> simp [substitute, references, h]
    | _ => rfl
  | list _ _ ih => simpa only [substitute, references] using ih
  | map _ _ _ ihk ihv => simp only [substitute, references, ihk, ihv, List.flatMap_append]

end DataType

end PojoGraph
