import PojoGraph.Schema.Keyword

/-!
# Writing schemas

A schema is written with its keywords in their order; absent and empty ones are left out.

## Main definitions

* `Schema.encode` — a schema as a JSON value.
-/

namespace PojoGraph

namespace Json

/-- A list of texts as an array; nothing for an empty one. -/
def ofTexts? (texts : List String) : Option Json :=
  if texts.isEmpty then none else some (array (texts.map string))

/-- A list of values as an array; nothing for an empty one. -/
def ofItems? (items : List Json) : Option Json :=
  if items.isEmpty then none else some (array items)

/-- A list of fields as an object; nothing for an empty one. -/
def ofFields? (fields : List (String × Json)) : Option Json :=
  if fields.isEmpty then none else some (object fields)

/-- A natural number. -/
def ofNat (n : Nat) : Json :=
  number (.integer n)

end Json

/-- A type keyword as a JSON value. -/
def TypeSet.encode : TypeSet → Json
  | single type => .string type.keyword
  | multiple types => .array (types.map fun type => .string type.keyword)

/-- An exclusive bound as a JSON value. -/
def ExclusiveBound.encode : ExclusiveBound → Json
  | .flag allowed => .bool allowed
  | .value bound => .number bound

/-- A discriminator as a JSON value. -/
def DiscriminatorKeyword.encode (discriminator : DiscriminatorKeyword) : Json :=
  .object (("propertyName", .string discriminator.propertyName) ::
    if discriminator.mapping.isEmpty then []
    else [("mapping", .object (discriminator.mapping.map fun entry =>
      (entry.1, .string entry.2)))])

/-- The value of a keyword that holds no schemas. -/
def Facets.encode? (facets : Facets) : Keyword → Option Json
  | .types => facets.types.map TypeSet.encode
  | .format => facets.format.map .string
  | .title => facets.title.map .string
  | .description => facets.description.map .string
  | .nullable => facets.nullable.map .bool
  | .required => Json.ofTexts? facets.required
  | .minProperties => facets.minProperties.map Json.ofNat
  | .maxProperties => facets.maxProperties.map Json.ofNat
  | .discriminator => facets.discriminator.map DiscriminatorKeyword.encode
  | .enumValues => Json.ofItems? facets.enumValues
  | .minimum => facets.minimum.map .number
  | .maximum => facets.maximum.map .number
  | .exclusiveMinimum => facets.exclusiveMinimum.map ExclusiveBound.encode
  | .exclusiveMaximum => facets.exclusiveMaximum.map ExclusiveBound.encode
  | .multipleOf => facets.multipleOf.map .number
  | .minLength => facets.minLength.map Json.ofNat
  | .maxLength => facets.maxLength.map Json.ofNat
  | .pattern => facets.pattern.map .string
  | .minItems => facets.minItems.map Json.ofNat
  | .maxItems => facets.maxItems.map Json.ofNat
  | .properties | .additional | .items | .allOf | .oneOf | .anyOf => none

/-- The fields of a schema whose inner schemas are written already. -/
def Keywords.encode (k : Keywords Json) : Json :=
  .object (Keyword.all.filterMap fun keyword =>
    (match keyword with
      | .properties => Json.ofFields? k.properties
      | .additional => k.additional.map fun (value : Additional Json) => match value with
        | .flag allowed => .bool allowed
        | .schema schema => schema
      | .items => k.items
      | .allOf => Json.ofItems? k.allOf
      | .oneOf => Json.ofItems? k.oneOf
      | .anyOf => Json.ofItems? k.anyOf
      | _ => k.toFacets.encode? keyword).map (keyword.spelling, ·))

namespace Schema

mutual

/-- The schema as a JSON value. -/
def encode : Schema → Json
  | ref target => .object [("$ref", .string target)]
  | inline ⟨facets, properties, additional, items, allOf, oneOf, anyOf⟩ =>
    Keywords.encode
      { toFacets := facets
        properties := encodeProperties properties
        additional := match additional with
          | none => none
          | some (.flag allowed) => some (.flag allowed)
          | some (.schema schema) => some (.schema schema.encode)
        items := match items with
          | none => none
          | some item => some item.encode
        allOf := encodeAll allOf
        oneOf := encodeAll oneOf
        anyOf := encodeAll anyOf }

/-- Properties as fields. -/
def encodeProperties : List (String × Schema) → List (String × Json)
  | [] => []
  | (key, schema) :: rest => (key, schema.encode) :: encodeProperties rest

/-- A list of schemas as JSON values. -/
def encodeAll : List Schema → List Json
  | [] => []
  | schema :: rest => schema.encode :: encodeAll rest

end

theorem encodeProperties_eq (properties : List (String × Schema)) :
    encodeProperties properties = properties.map fun property =>
      (property.1, property.2.encode) := by
  induction properties with
  | nil => rfl
  | cons property rest ih => simp [encodeProperties, ih]

theorem encodeAll_eq (schemas : List Schema) : encodeAll schemas = schemas.map encode := by
  induction schemas with
  | nil => rfl
  | cons schema rest ih => simp [encodeAll, ih]

end Schema

end PojoGraph
