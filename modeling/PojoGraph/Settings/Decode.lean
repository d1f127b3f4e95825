import PojoGraph.Settings.Basic
import PojoGraph.Yaml.Core

/-!
# Reading settings

Settings are written as a YAML document whose fields may be left out; unknown fields do not
count.

## Main definitions

* `Settings.decode?` — the settings in a node.
* `Settings.read?` — the settings in a text.
-/

namespace PojoGraph

open Yaml

/-! ## Values -/

/-- The value of a field, or the default where the field is left out. -/
def fieldOr {α : Type} (value : α) (read : Node → Option α) : Option Node → Option α
  | none => some value
  | some node => read node

/-- The value of a field that may be left out or null. -/
def optionalField {α : Type} (read : Node → Option α) (field : Option Node) : Option (Option α) :=
  Source.optional? read field

/-- The values in a sequence. -/
def listOf? {α : Type} (read : Node → Option α) (node : Node) : Option (List α) :=
  node.items?.bind (·.mapM read)

/-- The truth value in a plain scalar. -/
def flag? : Node → Option Bool
  | .scalar _ .plain text => boolOf? text
  | _ => none

/-! ## Parts of settings -/

/-- The mapping of a class in a node. -/
def ClassMapping.decode? (node : Node) : Option ClassMapping := do
  match ← Source.fields? ["from", "to", "import"] 2 node with
  | [some scalar, some className, importName] =>
    some {
      scalar := ← scalar.text?
      className := ← className.text?
      importName := ← optionalField Node.text? importName }
  | _ => none

/-- The mapping of a format in a node. -/
def FormatMapping.decode? (node : Node) : Option FormatMapping := do
  match ← Source.fields? ["format", "to", "import"] 2 node with
  | [some format, some className, importName] =>
    some {
      format := ← format.text?
      className := ← className.text?
      importName := ← optionalField Node.text? importName }
  | _ => none

/-- The mapping of a part of names in a node. -/
def NameMapping.decode? (node : Node) : Option NameMapping := do
  match ← Source.fields? ["constant", "replacement"] 2 node with
  | [some constant, some replacement] =>
    some { constant := ← constant.text?, replacement := ← replacement.text? }
  | _ => none

namespace ReferenceInlining

/-- The choice of a name. -/
def ofName? : String → Option ReferenceInlining
  | "simple" => some simple
  | "never" => some never
  | _ => none

/-- The choice in a node: a scalar that names it, or a tag that does on an empty one. -/
def decode? (node : Node) : Option ReferenceInlining :=
  match node with
  | .scalar tag style text =>
    match tag.map String.toList with
    | some ('!' :: name) =>
      if style == .plain && (text.isEmpty || isNullSpelling text) then
        ofName? (String.ofList name)
      else none
    | _ => ofName? text
  | _ => none

end ReferenceInlining

/-- How enum values are described, in a node. -/
def EnumDescriptionSettings.decode? (node : Node) : Option EnumDescriptionSettings := do
  match ← Source.fields? ["prefix", "fail_on_incomplete"] 0 node with
  | [marker, failOnIncomplete] =>
    let default : EnumDescriptionSettings := {}
    some {
      marker := ← fieldOr default.marker Node.text? marker
      failOnIncomplete := ← fieldOr default.failOnIncomplete flag? failOnIncomplete }
  | _ => none

/-! ## Settings -/

namespace Settings

/-- The names of the fields, in order. -/
def fieldNames : List String :=
  ["input", "suffix", "excluded_schemas", "class_mappings", "format_mappings",
    "reference_inlining", "name_mappings", "enum_description"]

/-- The settings in a node. -/
def decode? (node : Node) : Option Settings := do
  match ← Source.fields? fieldNames 0 node with
  | [input, suffix, excludedSchemas, classMappings, formatMappings, referenceInlining,
      nameMappings, enumDescription] =>
    let default : Settings := {}
    some {
      input := ← fieldOr default.input Node.text? input
      suffix := ← fieldOr default.suffix Node.text? suffix
      excludedSchemas := ← fieldOr [] (listOf? Node.text?) excludedSchemas
      classMappings := ← fieldOr [] (listOf? ClassMapping.decode?) classMappings
      formatMappings := ← fieldOr [] (listOf? FormatMapping.decode?) formatMappings
      referenceInlining :=
        ← fieldOr default.referenceInlining ReferenceInlining.decode? referenceInlining
      nameMappings := ← fieldOr [] (listOf? NameMapping.decode?) nameMappings
      enumDescription := ← optionalField EnumDescriptionSettings.decode? enumDescription }
  | _ => none

/-- The settings in a text. An empty text gives the defaults. -/
def read? (text : String) : Option Settings :=
  (Node.read? text).bind decode?

/-- The settings that a new configuration file spells out, with examples of further ones. -/
def template : String :=
"# dtogen configuration
input: openapi.yaml
suffix: \"\"  # e.g. Dto

# Schemas skipped entirely (full-match regular expressions).
excluded_schemas: []
  # - \"Legacy.*\"

# Replacement classes for scalar types: string, date, date-time, time, uuid,
# email, uri, url, binary, byte, password, integer, long, float, double, boolean.
class_mappings: []
  # - from: uuid
  #   to: CustomUuid
  #   import: com.example.CustomUuid

format_mappings: []
  # - format: iban
  #   to: Iban
  #   import: com.example.Iban

reference_inlining: simple  # simple | never

name_mappings: []
  # - constant: Legacy
  #   replacement: \"\"

# enum_description:
#   prefix: \"* \x60\"
#   fail_on_incomplete: false
"

end Settings

end PojoGraph
