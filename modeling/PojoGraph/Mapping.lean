import PojoGraph.Log
import PojoGraph.Registry
import PojoGraph.Schema.Query
import PojoGraph.Settings.Basic

/-!
# Types of schemas

Where a schema stands at a member, or as the items of a list or the values of a map, it is
mapped to a type. Its form decides: references, inline objects, enums, scalars, lists, maps and
free-form values are told apart in that order, and a schema of none of these forms gets a type
that stands in for it, with a warning. An inline object becomes a schema of its own, under a
name made of the enclosing type and the member.

## Main definitions

* `Form`, `Keywords.form` — the forms and the rule that tells them apart.
* `Pending` — a schema with the name under which it is to be classified.
* `mapSchema` — the type of a schema at a member, with the schemas found on the way.
-/

namespace PojoGraph

/-! ## Constraints -/

/-- A bound of a number: an exact integer, or a decimal that is inclusive or not. -/
inductive NumericBound where
  | whole (value : Int)
  | decimal (bound : Bound)
  deriving DecidableEq, Repr

/-- The bound that a keyword and its exclusive partner set. An integer is kept as such where
`integral` holds and the bound is inclusive. -/
def numericBound (value : Option Number) (exclusive : Option ExclusiveBound) (integral : Bool) :
    Option NumericBound :=
  match value, exclusive with
  | _, some (.value bound) => some (.decimal ⟨bound.text, false⟩)
  | some bound, some (.flag true) => some (.decimal ⟨bound.text, false⟩)
  | some bound, _ =>
    match bound.int64?, integral with
    | some n, true => some (.whole n)
    | _, _ => some (.decimal ⟨bound.text, true⟩)
  | none, _ => none

namespace NumericBound

/-- The integer of an exact bound. -/
def whole? : NumericBound → Option Int
  | whole value => some value
  | decimal _ => none

/-- The decimal of another bound. -/
def decimal? : NumericBound → Option Bound
  | whole _ => none
  | decimal bound => some bound

end NumericBound

namespace Facets

/-- The constraints on numbers. -/
def numericConstraints (facets : Facets) (integral : Bool) : Constraints :=
  let lower := numericBound facets.minimum facets.exclusiveMinimum integral
  let upper := numericBound facets.maximum facets.exclusiveMaximum integral
  { min := lower.bind (·.whole?)
    max := upper.bind (·.whole?)
    decimalMin := lower.bind (·.decimal?)
    decimalMax := upper.bind (·.decimal?)
    multipleOf := facets.multipleOf.map (·.text) }

/-- The constraints on strings of a format. -/
def stringConstraints (facets : Facets) (format : StringFormat) : Constraints :=
  { size := Extent.of? facets.minLength facets.maxLength
    pattern := facets.pattern
    email := format == .email }

/-- The constraints on the number of items. -/
def itemConstraints (facets : Facets) : Constraints :=
  { size := Extent.of? facets.minItems facets.maxItems }

/-- The constraints on the number of properties. -/
def propertyConstraints (facets : Facets) : Constraints :=
  { propertyCount := Extent.of? facets.minProperties facets.maxProperties }

/-- The scalar that the schema's type and format denote, with its constraints. -/
def scalar? (facets : Facets) : Option (Scalar × Constraints) :=
  match facets.singleType? with
  | some .string =>
    let format := StringFormat.ofKeyword? facets.format
    some (.string format, facets.stringConstraints format)
  | some .boolean => some (.boolean, {})
  | some .integer =>
    some (.integer (if facets.format == some "int64" then .long else .integer),
      facets.numericConstraints true)
  | some .number =>
    some (.number (if facets.format == some "float" then .float else .double),
      facets.numericConstraints false)
  | _ => none

end Facets

/-! ## Forms -/

/-- What a schema written in place denotes where it stands. -/
inductive Form where
  | reference (target : String)
  | object
  | enum (values : List String)
  | scalar (scalar : Scalar) (constraints : Constraints)
  | list
  | map
  | freeForm
  | unrecognized
  deriving DecidableEq, Repr

/-- The form of a schema: the first that fits. -/
def Keywords.form (k : Keywords Schema) : Form :=
  match k.singleReference? with
  | some target => .reference target
  | none =>
    if k.isInlineObject then .object
    else match if k.admitsType .string then k.stringEnum? else none with
      | some values => .enum values
      | none =>
        match k.scalar? with
        | some (scalar, constraints) => .scalar scalar constraints
        | none =>
          if k.isArrayShaped then .list
          else if k.mapValue?.isSome then .map
          else if k.isType .object || (Schema.inline k).isEmpty then .freeForm
          else .unrecognized

/-! ## Mapping -/

/-- A schema with the name under which it is to be classified. -/
structure Pending where
  name : PojoName
  schema : Schema
  deriving Inhabited

/-- The type of a schema, the inline schemas found in it and the names taken afterwards. -/
structure Mapped where
  type : DataType
  found : List Pending := []
  warnings : List Warning := []
  registry : Registry
  deriving Inhabited

/-- The result with its type changed. -/
def Mapped.mapType (f : DataType → DataType) (mapped : Mapped) : Mapped :=
  { mapped with type := f mapped.type }

/-- The type of a schema that stands at a member of a type. Lists and maps take the form of what
they hold, under the same member. -/
def mapSchema (settings : Settings) (owner : PojoName) (member : String) (registry : Registry) :
    Schema → Mapped
  | .ref target => { type := .object (settings.pojoName (refName target)), registry }
  | .inline ⟨facets, properties, additional, items, allOf, oneOf, anyOf⟩ =>
    let k : Keywords Schema := ⟨facets, properties, additional, items, allOf, oneOf, anyOf⟩
    let unrecognized : Mapped :=
      { type := .unmapped, warnings := [.unrecognizedShape owner member], registry }
    match k.form with
    | .reference target => { type := .object (settings.pojoName (refName target)), registry }
    | .object =>
      let claimed := registry.claim (owner.ofMember member)
      { type := .object claimed.1, found := [⟨claimed.1, .inline k⟩], registry := claimed.2 }
    | .enum values => { type := .leaf (.enum (EnumValue.ofValues values)) {}, registry }
    | .scalar scalar constraints =>
      let type := DataType.scalar scalar constraints
      { type := type.withOverride (settings.overrideFor type), registry }
    | .list =>
      match items with
      | some item =>
        (mapSchema settings owner member registry item).mapType
          (.list · { constraints := facets.itemConstraints })
      | none => { type := .list .freeForm { constraints := facets.itemConstraints }, registry }
    | .map =>
      match additional with
      | some (.schema value) =>
        (mapSchema settings owner member registry value).mapType
          (.mapOf · facets.propertyConstraints)
      | some (.flag _) => unrecognized
      | none => unrecognized
    | .freeForm => { type := .freeForm facets.propertyConstraints, registry }
    | .unrecognized => unrecognized

end PojoGraph
