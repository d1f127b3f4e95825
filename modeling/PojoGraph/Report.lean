import PojoGraph.Document.Set
import PojoGraph.PojoSet

/-!
# Reports

A report tells what a run has found, as a JSON value that can be written in any format. The
fields of every object are sorted by their keys. Types are told by their texts, branches by their
names.

## Main definitions

* `DataType.report`, `Member.report`, `Pojo.report` — the parts.
* `DocumentSet.report` — the whole.
-/

namespace PojoGraph

/-- A text that may be missing. -/
def Json.optionalText (text : Option String) : Json :=
  text.elim .null .string

/-- A list of texts. -/
def Json.texts (texts : List String) : Json :=
  .array (texts.map .string)

/-- The text of a type, with what restricts its values in brackets. -/
def DataType.report (type : DataType) : Json :=
  let constraints := type.traits.constraints
  .string (if constraints.isEmpty then type.text
    else type.text ++ " [" ++ Text.joinWith " " constraints.labels ++ "]")

/-- The labels of constraints. -/
def Constraints.report (constraints : Constraints) : Json :=
  .texts constraints.labels

/-- A member. -/
def Member.report (member : Member) : Json :=
  .sortedObject [
    ("name", .string member.name),
    ("type", member.type.report),
    ("state", .string member.state.text),
    ("description", .optionalText member.description)]

/-- A discriminator; of two entries for one value the later counts. -/
def Discriminator.report (discriminator : Discriminator) : Json :=
  .sortedObject [
    ("property", .string discriminator.property),
    ("mapping", .sortedObject (discriminator.entries.map fun entry =>
      (entry.value, .string entry.branch.text)))]

/-- The branches of a composition and what tells them apart. -/
def compositionReport (branches : List ObjectPojo) (discriminator : Option Discriminator) : Json :=
  .sortedObject (("pojos", .texts (branches.map (·.name.text)))
    :: (discriminator.map fun d => ("discriminator", d.report)).toList)

/-- A union. -/
def Alternatives.report (union : Alternatives ObjectPojo Discriminator) : Json :=
  compositionReport union.branches union.discriminator

/-- What properties an object admits beyond its members. -/
def AdditionalProperties.report : AdditionalProperties → Json
  | notAllowed => .bool false
  | allowed type => type.report

/-- The fields that only objects have; those that would say nothing are left out, except for the
members. -/
def ObjectPojo.reportFields (object : ObjectPojo) : List (String × Json) :=
  [("members", .array (object.members.map Member.report)),
    ("additional_properties", object.additional.report)]
  ++ (if object.requiredAdditional.isEmpty then []
    else [("required_additional_properties", .texts object.requiredAdditional)])
  ++ (if object.constraints.isEmpty then []
    else [("constraints", object.constraints.report)])
  ++ (object.allOf.map fun branches => ("allOf", compositionReport branches none)).toList
  ++ (object.oneOf.map fun union => ("oneOf", union.report)).toList
  ++ (object.anyOf.map fun union => ("anyOf", union.report)).toList

/-- A value of an enum. -/
def EnumValue.report (value : EnumValue) : Json :=
  .sortedObject [
    ("value", .string value.value),
    ("description", .optionalText value.description)]

/-- The fields that only generated types of one kind have. -/
def Pojo.reportFields : Pojo → List (String × Json)
  | object o => o.reportFields
  | array _ _ value => [("value", value.report)]
  | enum _ _ values => [("values", .array (values.map EnumValue.report))]
  | composed _ _ kind union => [(kind.composition.keyword, union.report)]
  | freeForm _ _ constraints => [("constraints", constraints.report)]
  | typeAlias _ _ type nullability =>
    [("type", type.report), ("nullable", .bool (nullability == .nullable))]

/-- A generated type. -/
def Pojo.report (pojo : Pojo) : Json :=
  .sortedObject (("name", .string pojo.name.text) :: ("kind", .string pojo.kind)
    :: (pojo.description.map fun text => ("description", Json.string text)).toList
    ++ pojo.reportFields)

/-- What a run on some documents has found. -/
def DocumentSet.report (documents : DocumentSet) (result : PojoSet) : Json :=
  .sortedObject [
    ("info", .sortedObject [
      ("title", .string documents.main.info.title),
      ("version", .string documents.main.info.version)]),
    ("documents", .texts documents.external.keys),
    ("pojos", .array (result.pojos.map Pojo.report)),
    ("warnings", .texts (result.warnings.map (·.message)))]

end PojoGraph
