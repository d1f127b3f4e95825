import PojoGraph.DataType

/-!
# Settings of a run

## Main definitions

* `Settings` — all settings with their defaults.
* `Settings.overrideFor` — the class that stands for a type in generated code.
-/

namespace PojoGraph

/-- A class for the scalars of one canonical name. -/
structure ClassMapping where
  scalar : String
  className : String
  importName : Option String := none
  deriving DecidableEq, Repr, Inhabited

/-- A class for the strings of one format. -/
structure FormatMapping where
  format : String
  className : String
  importName : Option String := none
  deriving DecidableEq, Repr, Inhabited

/-- A constant part of type names and what replaces it. -/
structure NameMapping where
  constant : String
  replacement : String
  deriving DecidableEq, Repr, Inhabited

/-- What becomes of schemas that are just a plain type: their types are put in place of
references to them, or they are kept as types of their own. -/
inductive ReferenceInlining where
  | simple
  | never
  deriving DecidableEq, Repr, Inhabited

/-- How the values of an enum are described in the description of its schema: by lines that
begin with `marker`, which the value follows. -/
structure EnumDescriptionSettings where
  marker : String := "* \x60"
  failOnIncomplete : Bool := false
  deriving DecidableEq, Repr, Inhabited

/-- The settings of a run. -/
structure Settings where
  /-- The document to start from. -/
  input : String := "openapi.yaml"
  /-- Appended to every type name. -/
  suffix : String := ""
  /-- Patterns; a named schema whose name matches one as a whole is left out. -/
  excludedSchemas : List String := []
  classMappings : List ClassMapping := []
  formatMappings : List FormatMapping := []
  referenceInlining : ReferenceInlining := .simple
  nameMappings : List NameMapping := []
  enumDescription : Option EnumDescriptionSettings := none
  deriving DecidableEq, Repr, Inhabited

namespace Settings

/-- The class that the first mapping of a string's format gives it. -/
def formatOverride (settings : Settings) (type : DataType) : Option ClassOverride := do
  let format ← type.format?
  let mapping ← settings.formatMappings.find? (·.format == format)
  some ⟨mapping.className, mapping.importName⟩

/-- The class that the first mapping of a scalar's canonical name gives it; ASCII case does not
count. -/
def classOverride (settings : Settings) (type : DataType) : Option ClassOverride := do
  let canonical ← type.canonicalName?
  let mapping ← settings.classMappings.find? (equalsIgnoringAsciiCase ·.scalar canonical)
  some ⟨mapping.className, mapping.importName⟩

/-- The class for a type: a mapping of its format goes before one of its canonical name. -/
def overrideFor (settings : Settings) (type : DataType) : Option ClassOverride :=
  settings.formatOverride type <|> settings.classOverride type

/-- The name of a type for a schema key. -/
def pojoName (settings : Settings) (key : String) : PojoName :=
  ⟨key, settings.suffix⟩

/-- The name with all name mappings applied in order. -/
def mapName (settings : Settings) (name : PojoName) : PojoName :=
  settings.nameMappings.foldl (fun n mapping => n.replace mapping.constant mapping.replacement)
    name

end Settings

end PojoGraph
