import PojoGraph.Fault
import PojoGraph.Mapping
import PojoGraph.Stub

/-!
# Classification of named schemas

A named schema is an array, a composed type, an object, an enum, a free-form object, or just a
plain type; the first rule that fits decides. On the way inline schemas are found; each gets a
name that no other schema has.

## Main definitions

* `Survey` — what is found while a schema is classified.
* `EnumValue.describeAll` — descriptions of enum values, taken from a text.
* `classify` — what a named schema turns out to be.
-/

namespace PojoGraph

/-! ## Surveys -/

/-- What has been found so far: the names taken, the inline schemas, the warnings. -/
structure Survey where
  registry : Registry
  found : List Pending := []
  warnings : List Warning := []
  deriving Inhabited

namespace Survey

/-- The type of a schema at a member, and the survey with what was found in it. -/
def mapType (settings : Settings) (owner : PojoName) (survey : Survey) (member : String)
    (schema : Schema) : DataType × Survey :=
  let mapped := mapSchema settings owner member survey.registry schema
  (mapped.type,
    { registry := mapped.registry
      found := survey.found ++ mapped.found
      warnings := survey.warnings ++ mapped.warnings })

/-- A name for an inline schema, and the survey in which the schema waits under it. -/
def discover (survey : Survey) (name : PojoName) (schema : Schema) : PojoName × Survey :=
  let claimed := survey.registry.claim name
  (claimed.1,
    { survey with registry := claimed.2, found := survey.found ++ [⟨claimed.1, schema⟩] })

/-- The survey with one more warning. -/
def warn (survey : Survey) (warning : Warning) : Survey :=
  { survey with warnings := survey.warnings ++ [warning] }

end Survey

/-- Carries a state through a list from left to right. -/
def mapWithState {α β σ : Type} (f : σ → α → β × σ) (state : σ) : List α → List β × σ
  | [] => ([], state)
  | a :: rest =>
    let (b, state) := f state a
    let (bs, state) := mapWithState f state rest
    (b :: bs, state)

/-! ## Parts of a type -/

/-- The name of the member that stands for the type itself where it has no members. -/
def valueMember : String := "value"

/-- The name of the member that stands for further properties. -/
def additionalMember : String := "additionalProperties"

variable (settings : Settings) (owner : PojoName)

/-- The member of a declared property. -/
def memberOf (required : List String) (survey : Survey) (property : String × Schema) :
    Member × Survey :=
  let (type, survey) := survey.mapType settings owner property.1 property.2
  let (description, isNullable) := match property.2 with
    | .ref _ => (none, false)
    | .inline k => (k.description, k.isNullable)
  ({ name := property.1
     description
     type
     necessity := .ofBool (required.contains property.1)
     nullability := .ofBool isNullable }, survey)

/-- The members of all declared properties. -/
def membersOf (k : Keywords Schema) (survey : Survey) : List Member × Survey :=
  mapWithState (memberOf settings owner k.required) survey k.properties

/-- What the schema says about further properties. -/
def additionalOf (k : Keywords Schema) (survey : Survey) : AdditionalProperties × Survey :=
  match k.additional with
  | none => (.notAllowed, survey)
  | some (.flag false) => (.notAllowed, survey)
  | some (.flag true) => (.allowed .freeForm, survey)
  | some (.schema value) =>
    if value.isEmpty then (.allowed .freeForm, survey)
    else
      let (type, survey) := survey.mapType settings owner additionalMember value
      (.ofType type, survey)

/-- The name of the branch at a schema of a composition. An inline branch is named after its
keyword, with its number among the inline branches if there are several. -/
def branchOf (kind : CompositionKind) (isNumbered : Bool) (state : Nat × Survey)
    (schema : Schema) : PojoName × Nat × Survey :=
  match schema with
  | .ref target => (settings.pojoName (refName target), state)
  | .inline _ =>
    let tag := if isNumbered then kind.tag ++ toString state.1 else kind.tag
    let (name, survey) := state.2.discover (owner.append tag) schema
    (name, state.1 + 1, survey)

/-- The names of the branches of a composition. Null branches are left out; without others there
is no composition. -/
def branchesOf (kind : CompositionKind) (schemas : List Schema) (survey : Survey) :
    Option (List PojoName) × Survey :=
  let branches := schemas.filter (!·.isNullType)
  if branches.isEmpty then (none, survey)
  else
    let isNumbered := 1 < branches.countP Schema.isInline
    let (names, _, survey) := mapWithState (branchOf settings owner kind isNumbered) (0, survey)
      branches
    (some names, survey)

/-- The discriminator of a schema, its targets given by name. An empty mapping is none. -/
def sketchOf (discriminator : DiscriminatorKeyword) : DiscriminatorSketch where
  property := discriminator.propertyName
  mapping :=
    if discriminator.mapping.isEmpty then none
    else some (discriminator.mapping.map fun entry =>
      (entry.1, settings.pojoName (refName entry.2)))

/-- The composed type of a schema. Its discriminator belongs to `oneOf` where that is given, to
`anyOf` otherwise. -/
def stubOf (k : Keywords Schema) (survey : Survey) : Stub × Survey :=
  let discriminator := k.discriminator.map (sketchOf settings)
  let (allOf, survey) := branchesOf settings owner .allOf k.allOf survey
  let (oneOf, survey) := branchesOf settings owner .oneOf k.oneOf survey
  let (anyOf, survey) := branchesOf settings owner .anyOf k.anyOf survey
  let (members, survey) := membersOf settings owner k survey
  let (additional, survey) := additionalOf settings owner k survey
  ({ name := owner
     description := k.description
     members
     requiredAdditional := k.requiredAdditional
     additional
     constraints := k.propertyConstraints
     allOf
     oneOf := oneOf.map (⟨·, if k.oneOf.isEmpty then none else discriminator⟩)
     anyOf := anyOf.map (⟨·, if k.oneOf.isEmpty then discriminator else none⟩) }, survey)

/-- The object type of a schema. -/
def objectOf (k : Keywords Schema) (survey : Survey) : ObjectPojo × Survey :=
  let (members, survey) := membersOf settings owner k survey
  let (additional, survey) := additionalOf settings owner k survey
  ({ name := owner
     description := k.description
     members
     requiredAdditional := k.requiredAdditional
     additional
     constraints := k.propertyConstraints }, survey)

/-- The plain type of a schema. -/
def plainOf (schema : Schema) (description : Option String) (isNullable : Bool)
    (survey : Survey) : PlainMember × Survey :=
  let (type, survey) := survey.mapType settings owner valueMember schema
  ({ name := owner, description, type, nullability := .ofBool isNullable }, survey)

/-! ## Enums -/

namespace EnumValue

/-- The value and the description in a line of the form marker, value, colon, description. -/
def ofLine? (marker : String) (line : List Char) : Option (String × String) := do
  let rest ← Text.stripLead marker.toList (Text.trim line)
  let (value, description) ← Text.splitOnce ':' rest
  some (String.ofList (Text.trimWhile (· == '\x60') (Text.trim value)),
    String.ofList (Text.trim description))

/-- Gives the first of the values that equals `value` a description. -/
def describe (value description : String) : List EnumValue → List EnumValue
  | [] => []
  | v :: rest =>
    if v.value = value then { v with description := some description } :: rest
    else v :: describe value description rest

/-- The values with the descriptions that the lines of a text give them; a later line goes
before an earlier one. -/
def describeAll (marker : String) (text : String) (values : List EnumValue) : List EnumValue :=
  ((Text.lines text.toList).filterMap (ofLine? marker)).foldl
    (fun values (value, description) => describe value description values) values

/-- The values without a description, if any value has one. -/
def undescribed (values : List EnumValue) : List String :=
  if values.all (·.description.isNone) then []
  else (values.filter (·.description.isNone)).map (·.value)

end EnumValue

/-- The enum type of a schema with the given values. That some but not all values are described
is a fault or a warning, as the settings say. -/
def enumOf (k : Keywords Schema) (values : List String) (survey : Survey) :
    Except Fault (Pojo × Survey) :=
  let values := EnumValue.ofValues values
  match settings.enumDescription, k.description with
  | some rule, some text =>
    let described := EnumValue.describeAll rule.marker text values
    let missing := EnumValue.undescribed described
    if missing.isEmpty then .ok (.enum owner k.description described, survey)
    else if rule.failOnIncomplete then .error (.incompleteEnum owner missing)
    else .ok (.enum owner k.description described, survey.warn (.incompleteEnum owner missing))
  | _, _ => .ok (.enum owner k.description values, survey)

/-! ## Classification -/

/-- What a schema written in place turns out to be. -/
def classifyInline (k : Keywords Schema) (survey : Survey) : Except Fault (Classified × Survey) :=
  if k.isArrayShaped then
    let (type, survey) := survey.mapType settings owner valueMember (.inline k)
    .ok (.pojo (.array owner k.description
      { name := valueMember, type, necessity := .required
        nullability := .ofBool k.isNullable }), survey)
  else if k.hasNullBranch && k.singleReference?.isSome then
    let (plain, survey) := plainOf settings owner (.inline k) k.description true survey
    .ok (.plain plain, survey)
  else if k.hasComposition then
    let (stub, survey) := stubOf settings owner k survey
    .ok (.stub stub, survey)
  else if k.isObjectShaped then
    let (object, survey) := objectOf settings owner k survey
    .ok (.pojo (.object object), survey)
  else
    match if k.admitsType .string then k.stringEnum? else none with
    | some values => do
      let (pojo, survey) ← enumOf settings owner k values survey
      .ok (.pojo pojo, survey)
    | none =>
      let survey := if k.enumValues.isEmpty then survey else survey.warn (.nonStringEnum owner)
      if k.isType .object || (Schema.inline k).isEmpty then
        .ok (.pojo (.freeForm owner k.description k.propertyConstraints), survey)
      else
        let (plain, survey) :=
          plainOf settings owner (.inline k) k.description k.isNullable survey
        .ok (.plain plain, survey)

omit owner in
/-- What a named schema turns out to be, with the inline schemas found in it. -/
def classify (pending : Pending) (registry : Registry) : Except Fault (Classified × Survey) :=
  match pending.schema with
  | .ref _ =>
    let (plain, survey) := plainOf settings pending.name pending.schema none false { registry }
    .ok (.plain plain, survey)
  | .inline k => classifyInline settings pending.name k { registry }

/-- What the classification of a schema logs. -/
def classificationLog (classified : Classified) (survey : Survey) : List LogLine :=
  survey.warnings.filterMap (fun
    | .unrecognizedShape pojo member => some (.unrecognized pojo member)
    | _ => none) ++ [.classified classified.name classified.kind]

end PojoGraph
