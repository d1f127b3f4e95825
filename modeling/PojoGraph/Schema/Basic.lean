import PojoGraph.Dictionary
import PojoGraph.Json.Value

/-!
# Schemas

A schema is a reference to another schema or a set of keywords. Some keywords hold further
schemas; the others, its facets, do not.

## Main definitions

* `Facets`, `Keywords`, `Schema` — schemas.
* `Keywords.children` — the schemas directly inside a schema, in the order in which references
  are collected.
* `Schema.references` — all references inside a schema.
* `Schema.size` — the number of schemas in a schema, itself included.
-/

namespace PojoGraph

/-- The values of the `type` keyword. -/
inductive SchemaType where
  | string
  | number
  | integer
  | boolean
  | array
  | object
  | null
  deriving DecidableEq, Repr, Inhabited

/-- The `type` keyword: one type or a list of them. -/
inductive TypeSet where
  | single (type : SchemaType)
  | multiple (types : List SchemaType)
  deriving DecidableEq, Repr, Inhabited

/-- An exclusive bound: a flag that makes the inclusive bound exclusive, or a bound of its own. -/
inductive ExclusiveBound where
  | flag (value : Bool)
  | value (bound : Number)
  deriving Inhabited

/-- The `discriminator` keyword: a property, and the schemas that its values select. -/
structure DiscriminatorKeyword where
  propertyName : String
  mapping : Dictionary String := []
  deriving DecidableEq, Repr, Inhabited

/-- The keywords that hold no schemas. -/
structure Facets where
  types : Option TypeSet := none
  format : Option String := none
  title : Option String := none
  description : Option String := none
  nullable : Option Bool := none
  required : List String := []
  minProperties : Option Nat := none
  maxProperties : Option Nat := none
  discriminator : Option DiscriminatorKeyword := none
  enumValues : List Json := []
  minimum : Option Number := none
  maximum : Option Number := none
  exclusiveMinimum : Option ExclusiveBound := none
  exclusiveMaximum : Option ExclusiveBound := none
  multipleOf : Option Number := none
  minLength : Option Nat := none
  maxLength : Option Nat := none
  pattern : Option String := none
  minItems : Option Nat := none
  maxItems : Option Nat := none
  deriving Inhabited

/-- The `additionalProperties` keyword. -/
inductive Additional (σ : Type) where
  | flag (allowed : Bool)
  | schema (schema : σ)
  deriving Inhabited

/-- The keywords of a schema; `σ` is the type of the schemas inside it. -/
structure Keywords (σ : Type) extends Facets where
  properties : List (String × σ) := []
  additional : Option (Additional σ) := none
  items : Option σ := none
  allOf : List σ := []
  oneOf : List σ := []
  anyOf : List σ := []
  deriving Inhabited

/-- A reference, or a schema written in place. -/
inductive Schema where
  | ref (target : String)
  | inline (keywords : Keywords Schema)
  deriving Inhabited

namespace Keywords

variable {σ : Type}

/-- The schemas directly inside. -/
def children (k : Keywords σ) : List σ :=
  k.properties.map (·.2) ++ k.items.toList ++ k.allOf ++ k.oneOf ++ k.anyOf
    ++ match k.additional with
      | some (.schema schema) => [schema]
      | _ => []

/-- The targets that the discriminator names. -/
def mappingTargets (k : Keywords σ) : List String :=
  match k.discriminator with
  | some discriminator => discriminator.mapping.map (·.2)
  | none => []

end Keywords

namespace Schema

/-! ## References -/

mutual

/-- All references inside the schema, the targets of discriminators included, in order. -/
def references : Schema → List String
  | ref target => [target]
  | inline ⟨facets, properties, additional, items, allOf, oneOf, anyOf⟩ =>
    referencesOfProperties properties
    ++ (match items with
      | none => []
      | some item => item.references)
    ++ referencesOfAll allOf ++ referencesOfAll oneOf ++ referencesOfAll anyOf
    ++ (match additional with
      | some (.schema schema) => schema.references
      | some (.flag _) => []
      | none => [])
    ++ Keywords.mappingTargets (σ := Schema) { facets with }

/-- The references inside the schemas of properties. -/
def referencesOfProperties : List (String × Schema) → List String
  | [] => []
  | (_, schema) :: rest => schema.references ++ referencesOfProperties rest

/-- The references inside a list of schemas. -/
def referencesOfAll : List Schema → List String
  | [] => []
  | schema :: rest => schema.references ++ referencesOfAll rest

end

theorem referencesOfProperties_eq (properties : List (String × Schema)) :
    referencesOfProperties properties = (properties.map (·.2)).flatMap references := by
  induction properties with
  | nil => rfl
  | cons property rest ih => simp [referencesOfProperties, ih]

theorem referencesOfAll_eq (schemas : List Schema) :
    referencesOfAll schemas = schemas.flatMap references := by
  induction schemas with
  | nil => rfl
  | cons schema rest ih => simp [referencesOfAll, ih]

@[simp] theorem references_ref (target : String) : (ref target).references = [target] := by
  simp [references]

/-- The references of a schema written in place are those of its children and the targets of its
discriminator. -/
theorem references_inline (k : Keywords Schema) :
    (inline k).references = k.children.flatMap references ++ k.mappingTargets := by
  obtain ⟨facets, properties, additional, items, allOf, oneOf, anyOf⟩ := k
  rcases items with _ | item <;> rcases additional with _ | _ | schema <;>
    simp [references, Keywords.children, Keywords.mappingTargets, referencesOfAll_eq,
      referencesOfProperties_eq]

/-! ## Size -/

mutual

/-- The number of schemas in a schema, itself included. -/
def size : Schema → Nat
  | ref _ => 1
  | inline ⟨_, properties, additional, items, allOf, oneOf, anyOf⟩ =>
    1 + sizeOfProperties properties
    + (match items with
      | none => 0
      | some item => item.size)
    + sizeOfAll allOf + sizeOfAll oneOf + sizeOfAll anyOf
    + (match additional with
      | some (.schema schema) => schema.size
      | some (.flag _) => 0
      | none => 0)

/-- The number of schemas in the schemas of properties. -/
def sizeOfProperties : List (String × Schema) → Nat
  | [] => 0
  | (_, schema) :: rest => schema.size + sizeOfProperties rest

/-- The number of schemas in a list of schemas. -/
def sizeOfAll : List Schema → Nat
  | [] => 0
  | schema :: rest => schema.size + sizeOfAll rest

end

theorem sizeOfAll_append (before after : List Schema) :
    sizeOfAll (before ++ after) = sizeOfAll before + sizeOfAll after := by
  induction before with
  | nil => simp [sizeOfAll]
  | cons schema rest ih => simp only [List.cons_append, sizeOfAll, ih]; omega

theorem sizeOfProperties_eq (properties : List (String × Schema)) :
    sizeOfProperties properties = sizeOfAll (properties.map (·.2)) := by
  induction properties with
  | nil => rfl
  | cons property rest ih => simp [sizeOfProperties, sizeOfAll, ih]

/-- A schema written in place is one more than its children together. -/
theorem size_inline (k : Keywords Schema) : (inline k).size = 1 + sizeOfAll k.children := by
  obtain ⟨facets, properties, additional, items, allOf, oneOf, anyOf⟩ := k
  rcases items with _ | item <;> rcases additional with _ | _ | schema <;>
    simp [size, Keywords.children, sizeOfAll, sizeOfAll_append, sizeOfProperties_eq] <;> omega

theorem size_pos (schema : Schema) : 0 < schema.size := by
  cases schema with
  | ref _ => simp [size]
  | inline k => rw [size_inline]; omega

/-- A child is smaller than the schema it is in. -/
theorem size_lt_of_mem_children {k : Keywords Schema} {child : Schema} (h : child ∈ k.children) :
    child.size < (inline k).size := by
  obtain ⟨before, after, hk⟩ := List.append_of_mem h
  simp only [size_inline, hk, sizeOfAll_append, sizeOfAll]
  omega

end Schema

end PojoGraph
