import PojoGraph.Schema.Query

/-!
# Keywords of schemas

The keywords have a fixed order, in which a schema is written and in which a schema that is
given as a sequence lists its values.

## Main definitions

* `Keyword` — the keywords.
* `Keyword.all` — all of them, in order.
* `Keyword.spelling`, `Keyword.ofSpelling?` — as documents spell them.
-/

namespace PojoGraph

/-- The keywords of schemas. -/
inductive Keyword where
  | types
  | format
  | title
  | description
  | nullable
  | properties
  | required
  | additional
  | minProperties
  | maxProperties
  | items
  | allOf
  | oneOf
  | anyOf
  | discriminator
  | enumValues
  | minimum
  | maximum
  | exclusiveMinimum
  | exclusiveMaximum
  | multipleOf
  | minLength
  | maxLength
  | pattern
  | minItems
  | maxItems
  deriving DecidableEq, Repr, Inhabited

namespace Keyword

/-- All keywords in order. -/
def all : List Keyword :=
  [types, format, title, description, nullable, properties, required, additional,
    minProperties, maxProperties, items, allOf, oneOf, anyOf, discriminator, enumValues,
    minimum, maximum, exclusiveMinimum, exclusiveMaximum, multipleOf, minLength, maxLength,
    pattern, minItems, maxItems]

/-- The keyword as documents spell it. -/
def spelling : Keyword → String
  | types => "type"
  | format => "format"
  | title => "title"
  | description => "description"
  | nullable => "nullable"
  | properties => "properties"
  | required => "required"
  | additional => "additionalProperties"
  | minProperties => "minProperties"
  | maxProperties => "maxProperties"
  | items => "items"
  | allOf => "allOf"
  | oneOf => "oneOf"
  | anyOf => "anyOf"
  | discriminator => "discriminator"
  | enumValues => "enum"
  | minimum => "minimum"
  | maximum => "maximum"
  | exclusiveMinimum => "exclusiveMinimum"
  | exclusiveMaximum => "exclusiveMaximum"
  | multipleOf => "multipleOf"
  | minLength => "minLength"
  | maxLength => "maxLength"
  | pattern => "pattern"
  | minItems => "minItems"
  | maxItems => "maxItems"

/-- The keyword of a spelling. -/
def ofSpelling? (spelling : String) : Option Keyword :=
  all.find? (·.spelling == spelling)

end Keyword

end PojoGraph
