import PojoGraph.Schema.Basic
import PojoGraph.Text.Edit

/-!
# Questions about schemas

What a schema says about its type, about null and about its shape, as the rules of mapping and
classification ask for it.

## Main definitions

* `Facets.singleType?` — the one type that is not null.
* `Schema.isNullable`, `Schema.isNullType` — whether null is among the values, or the only one.
* `Keywords.singleReference?` — the reference of a composition that is nothing but one.
* `Schema.isEmpty` — whether the schema admits any value.
* `refName`, `refFile` — the schema and the document that a reference points to.
-/

namespace PojoGraph

/-! ## References -/

/-- The schema that a reference names: its last path segment. -/
def refName (target : String) : String :=
  String.ofList (Text.afterLast '/' target.toList)

/-- The document that a reference points into; none for a reference within its own. -/
def refFile (target : String) : Option String :=
  match Text.splitOnce '#' target.toList with
  | some ([], _) => none
  | some (file, _) => some (String.ofList file)
  | none => none

namespace SchemaType

/-- The spelling in a document. -/
def keyword : SchemaType → String
  | string => "string"
  | number => "number"
  | integer => "integer"
  | boolean => "boolean"
  | array => "array"
  | object => "object"
  | null => "null"

/-- All types. -/
def all : List SchemaType :=
  [string, number, integer, boolean, array, object, null]

/-- The type of a spelling. -/
def ofKeyword? (keyword : String) : Option SchemaType :=
  all.find? (·.keyword == keyword)

end SchemaType

namespace Facets

/-- The type of the values other than null, where there is just one. -/
def singleType? (facets : Facets) : Option SchemaType :=
  match facets.types with
  | some (.single type) => some type
  | some (.multiple types) =>
    match types.filter (· != .null) with
    | [type] => some type
    | _ => none
  | none => none

/-- Whether the one type is `type`. -/
def isType (facets : Facets) (type : SchemaType) : Bool :=
  facets.singleType? == some type

/-- Whether the one type is `type` or there is no such type. -/
def admitsType (facets : Facets) (type : SchemaType) : Bool :=
  facets.singleType?.all (· == type)

/-- Whether a list of types has null in it. -/
def listsNull (facets : Facets) : Bool :=
  match facets.types with
  | some (.multiple types) => types.contains .null
  | _ => false

/-- Whether no keyword constrains the values; title, description and `nullable` do not. -/
def isUnconstrained (facets : Facets) : Bool :=
  facets.types.isNone && facets.format.isNone && facets.required.isEmpty
    && facets.minProperties.isNone && facets.maxProperties.isNone
    && facets.discriminator.isNone && facets.enumValues.isEmpty
    && facets.minimum.isNone && facets.maximum.isNone
    && facets.exclusiveMinimum.isNone && facets.exclusiveMaximum.isNone
    && facets.multipleOf.isNone && facets.minLength.isNone && facets.maxLength.isNone
    && facets.pattern.isNone && facets.minItems.isNone && facets.maxItems.isNone

/-- The values of an enum of strings, null left out; none if another value is among them or no
string is. -/
def stringEnum? (facets : Facets) : Option (List String) :=
  match (facets.enumValues.filter (!·.isNull)).mapM Json.string? with
  | some [] => none
  | values => values

end Facets

namespace Schema

/-- The name of the schema that a reference points to. -/
def refName? : Schema → Option String
  | ref target => some (refName target)
  | inline _ => none

/-- Whether the schema is written in place. -/
def isInline : Schema → Bool
  | ref _ => false
  | inline _ => true

/-- Whether null is the only value: a type keyword that names null and nothing else. -/
def isNullType : Schema → Bool
  | ref _ => false
  | inline k =>
    match k.types with
    | some (.single type) => type == .null
    | some (.multiple types) => !types.isEmpty && types.all (· == .null)
    | none => false

/-- Whether any value is admitted because nothing is said about values. -/
def isEmpty : Schema → Bool
  | ref _ => false
  | inline k =>
    k.toFacets.isUnconstrained && k.properties.isEmpty && k.additional.isNone && k.items.isNone
      && k.allOf.isEmpty && k.oneOf.isEmpty && k.anyOf.isEmpty

end Schema

namespace Keywords

variable (k : Keywords Schema)

/-- Whether a union has null among its branches. -/
def hasNullBranch : Bool :=
  (k.oneOf ++ k.anyOf).any Schema.isNullType

/-- Whether null is among the values: by `nullable`, by a list of types, by an enum value or by
a branch of a union. -/
def isNullable : Bool :=
  k.nullable.getD false || k.listsNull || k.enumValues.any Json.isNull || k.hasNullBranch

/-- Whether the schema is composed of others. -/
def hasComposition : Bool :=
  !k.allOf.isEmpty || !k.oneOf.isEmpty || !k.anyOf.isEmpty

/-- The branches of all compositions, null branches left out. -/
def composedBranches : List Schema :=
  (k.allOf ++ k.oneOf ++ k.anyOf).filter (!·.isNullType)

/-- The reference that the schema merely describes or makes nullable: without properties, its
compositions have one branch besides null, and that is a reference. -/
def singleReference? : Option String :=
  if k.properties.isEmpty then
    match k.composedBranches with
    | [.ref target] => some target
    | _ => none
  else none

/-- Whether the schema describes arrays: by its type, or by its items where no type is given. -/
def isArrayShaped : Bool :=
  k.isType .array || (k.types.isNone && k.items.isSome)

/-- Whether the schema becomes a type of its own where it stands: it declares properties or is
composed. -/
def isInlineObject : Bool :=
  !k.properties.isEmpty || k.hasComposition

/-- The schema of the values, if the schema describes maps: no properties are declared, and
further ones have a schema that says something about them. -/
def mapValue? : Option Schema :=
  match k.additional with
  | some (.schema value) =>
    if k.admitsType .object && k.properties.isEmpty && !value.isEmpty then some value else none
  | _ => none

/-- Whether further properties are forbidden or of a certain type. -/
def restrictsAdditional : Bool :=
  match k.additional with
  | some (.schema value) => !value.isEmpty
  | some (.flag allowed) => !allowed
  | none => false

/-- Whether the schema describes objects of its own: it declares properties, or it may describe
objects and restricts further properties or requires some. -/
def isObjectShaped : Bool :=
  !k.properties.isEmpty
    || (k.admitsType .object && (k.restrictsAdditional || !k.required.isEmpty))

/-- The required names that no property declares. -/
def requiredAdditional : List String :=
  k.required.filter fun name => !k.properties.any (·.1 == name)

end Keywords

end PojoGraph
