import PojoGraph.Proofs.Classification.Bottom
import PojoGraph.Proofs.Classification.EnumDescriptions
import PojoGraph.Proofs.PojoSet.Copies

/-!
# Schemas that are not recognized

A schema that no rule of mapping recognizes does not keep the schema that it stands in from being
classified. At the position where mapping comes upon it, a type stands in for it, and one warning
names the position. Neither is lost on the way: this is shown part by part, as a part of a
classification fills some positions of the schema with types, and reports those of them that it
cannot tell the type of. A classification fails for one reason only, which is another.

## Main definitions

* `Keywords.IsUnrecognized` — no rule of mapping fits.
* `Position`, `Schema.positions` — the places of a schema where types are mapped, in order.
* `Position.Shows` — what is seen of a position in the type that fills it.
* `Classified.types` — the types of all members, with their names.
* `Fills` — a part of a classification fills positions.
* `Schema.LacksDescriptions` — an enum of which too few values are described.

## Main statements

* `Keywords.form_eq_unrecognized_iff` — mapping recognizes all other schemas.
* `marks_mapSchema` — a schema that is not recognized is marked in the type and reported once.
* `degradation_reported` — what classification reports and what it shows, or why it fails.
-/

namespace PojoGraph

/-! ## Unrecognized schemas -/

/-- No rule of mapping fits the schema: it is not just a reference, becomes no type of its own
where it stands, is no enum of strings, no scalar, no array and no map, and does not admit all
objects or all values. -/
structure Keywords.IsUnrecognized (k : Keywords Schema) : Prop where
  singleReference? : k.singleReference? = none
  isInlineObject : k.isInlineObject = false
  enumNames? : k.enumNames? = none
  scalar? : k.scalar? = none
  isArrayShaped : k.isArrayShaped = false
  mapValue? : k.mapValue? = none
  isFreeForm : (k.isType .object || (Schema.inline k).isEmpty) = false

/-- **Mapping recognizes all other schemas.** -/
theorem Keywords.form_eq_unrecognized_iff {k : Keywords Schema} :
    k.form = .unrecognized ↔ k.IsUnrecognized := by
  have hnames : (if k.admitsType .string then k.stringEnum? else none) = k.enumNames? := rfl
  constructor
  · intro h
    rw [form, hnames] at h
    cases hreference : k.singleReference? with
    | some target => simp [hreference] at h
    | none =>
    cases hobject : k.isInlineObject with
    | true => simp [hreference, hobject] at h
    | false =>
    cases hvalues : k.enumNames? with
    | some values => simp [hreference, hobject, hvalues] at h
    | none =>
    cases hscalar : k.scalar? with
    | some scalar => simp [hreference, hobject, hvalues, hscalar] at h
    | none =>
    simp only [hreference, hobject, hvalues, hscalar, Bool.false_eq_true, if_false] at h
    split_ifs at h with harray hmap hfree
    exact ⟨hreference, hobject, hvalues, hscalar, by simpa using harray, by simpa using hmap,
      by simpa using hfree⟩
  · intro h
    rw [form, hnames, h.singleReference?, h.isInlineObject, h.enumNames?, h.scalar?,
      h.isArrayShaped, h.mapValue?, h.isFreeForm]
    rfl

instance : DecidablePred Keywords.IsUnrecognized :=
  fun _ => decidable_of_iff _ Keywords.form_eq_unrecognized_iff

/-- No rule of mapping fits the schema. References are always mapped. -/
def Schema.IsUnrecognized : Schema → Prop
  | .ref _ => False
  | .inline k => k.IsUnrecognized

instance : DecidablePred Schema.IsUnrecognized
  | .ref _ => inferInstanceAs (Decidable False)
  | .inline k => inferInstanceAs (Decidable k.IsUnrecognized)

namespace Schema

variable {schema : Schema} (h : schema.isEmpty = true)

include h

/-- The schema without keywords admits all values, so that it is recognized. -/
theorem not_isUnrecognized_of_isEmpty : ¬ schema.IsUnrecognized := by
  cases schema with
  | ref target => cases h
  | inline k =>
    intro hunrecognized
    have hfree := hunrecognized.isFreeForm
    simp [h] at hfree

theorem bottom_of_isEmpty : schema.bottom = schema := by
  cases schema with
  | ref target => cases h
  | inline k =>
    simp only [isEmpty, Bool.and_eq_true, Option.isNone_iff_eq_none] at h
    obtain ⟨⟨⟨⟨⟨⟨-, -⟩, hadditional⟩, hitems⟩, -⟩, -⟩, -⟩ := h
    refine bottom_last (fun _ => hitems) fun hmap => ?_
    obtain ⟨value, hvalue⟩ := Keywords.exists_additional_of_form hmap
    rw [hadditional] at hvalue
    cases hvalue

end Schema

/-! ## Marks in types -/

/-- The type marks what mapping does not recognize in the schema: if it bottoms out there, the
innermost type is unmapped, and no other type in it is. -/
def DataType.Marks (schema : Schema) (type : DataType) : Prop :=
  type.nodes.filter (·.isUnmapped) = if schema.bottom.IsUnrecognized then [type.innermost] else []

section

variable (settings : Settings) (owner : PojoName) (member : String) (registry : Registry)

/-- **A schema that is not recognized is marked in the type and reported once**, however many
lists and maps it stands in. -/
theorem marks_mapSchema (schema : Schema) :
    (mapSchema settings owner member registry schema).type.Marks schema
      ∧ (mapSchema settings owner member registry schema).warnings
        = if schema.bottom.IsUnrecognized then [.unrecognizedShape owner member] else [] := by
  induction schema using Schema.mappingInduction with
  | ref target =>
    rw [mapSchema_ref, Schema.bottom]
    exact ⟨rfl, rfl⟩
  | list k item hform hitems ih =>
    rw [mapSchema_list _ _ _ _ hform hitems, DataType.Marks, Schema.bottom_list hform hitems]
    exact ih
  | map k value hform hadditional ih =>
    rw [mapSchema_map _ _ _ _ hform hadditional, DataType.Marks,
      Schema.bottom_map hform hadditional]
    exact ih
  | last k hlist hmap =>
    have hiff : (Schema.inline k).IsUnrecognized ↔ k.form = .unrecognized :=
      Keywords.form_eq_unrecognized_iff.symm
    rw [DataType.Marks, Schema.bottom_last hlist hmap, mapSchema_inline]
    simp only [hiff]
    cases hform : k.form with
    | map => exact absurd hform hmap
    | list =>
      rw [hlist hform]
      exact ⟨rfl, rfl⟩
    | _ => exact ⟨rfl, rfl⟩

/-- A type is unmapped as a whole if the schema itself is not recognized. -/
theorem isUnmapped_mapSchema_iff (schema : Schema) :
    (mapSchema settings owner member registry schema).type.isUnmapped = true
      ↔ schema.IsUnrecognized := by
  cases schema using Schema.mappingInduction with
  | ref target =>
    rw [mapSchema_ref]
    exact ⟨Bool.noConfusion, False.elim⟩
  | list k item hform hitems _ =>
    rw [mapSchema_list _ _ _ _ hform hitems, Schema.IsUnrecognized,
      ← Keywords.form_eq_unrecognized_iff, hform]
    exact ⟨Bool.noConfusion, Form.noConfusion⟩
  | map k value hform hadditional _ =>
    rw [mapSchema_map _ _ _ _ hform hadditional, Schema.IsUnrecognized,
      ← Keywords.form_eq_unrecognized_iff, hform]
    exact ⟨Bool.noConfusion, Form.noConfusion⟩
  | last k hlist hmap =>
    rw [Schema.IsUnrecognized, ← Keywords.form_eq_unrecognized_iff, mapSchema_inline]
    cases hform : k.form with
    | map => exact absurd hform hmap
    | unrecognized => exact ⟨fun _ => rfl, fun _ => rfl⟩
    | list =>
      rw [hlist hform]
      exact ⟨Bool.noConfusion, Form.noConfusion⟩
    | _ => exact ⟨Bool.noConfusion, Form.noConfusion⟩

end

/-! ## Positions -/

/-- A place of a schema whose type is mapped, with the schema that stands there. -/
inductive Position where
  /-- The schema itself, if it describes arrays or is just a type. -/
  | value (schema : Schema)
  /-- A declared property. -/
  | property (name : String) (schema : Schema)
  /-- Further properties. -/
  | further (schema : Schema)

namespace Position

/-- The name of the member at the position. -/
def member : Position → String
  | value _ => valueMember
  | property name _ => name
  | further _ => additionalMember

/-- The schema at the position. -/
def schema : Position → Schema
  | value schema => schema
  | property _ schema => schema
  | further schema => schema

/-- What is seen of a position in the type that fills it: the type marks what is not recognized in
the schema. Only where further properties are themselves of a schema that is not recognized, any
value is admitted. -/
inductive Shows : Position → String × DataType → Prop where
  | value {schema : Schema} {type : DataType} (h : type.Marks schema) :
    Shows (.value schema) (valueMember, type)
  | property {name : String} {schema : Schema} {type : DataType} (h : type.Marks schema) :
    Shows (.property name schema) (name, type)
  | further {schema : Schema} {type : DataType} (hschema : ¬ schema.IsUnrecognized)
      (h : type.Marks schema) :
    Shows (.further schema) (additionalMember, type)
  | anything {schema : Schema} (hschema : schema.IsUnrecognized) :
    Shows (.further schema) (additionalMember, .freeForm)

end Position

namespace Keywords

variable (k : Keywords Schema)

/-- The position of further properties, where these are allowed. If nothing is said of them, their
schema is the one without keywords. -/
def furtherPositions : List Position :=
  match k.additional with
  | none => []
  | some (.flag false) => []
  | some (.flag true) => [.further (.inline {})]
  | some (.schema value) => [.further value]

/-- The positions of an object or a composed type. -/
def objectPositions : List Position :=
  k.properties.map (fun property => .property property.1 property.2) ++ k.furtherPositions

/-- The positions of a schema written in place, by the rule of classification that fits. -/
def positions : List Position :=
  if k.isArrayShaped then [.value (.inline k)]
  else if k.hasNullBranch && k.singleReference?.isSome then [.value (.inline k)]
  else if k.hasComposition then k.objectPositions
  else if k.isObjectShaped then k.objectPositions
  else if k.enumNames?.isSome || k.isType .object || (Schema.inline k).isEmpty then []
  else [.value (.inline k)]

end Keywords

/-- The positions of a schema in the order in which they are mapped. -/
def Schema.positions : Schema → List Position
  | .ref target => [.value (.ref target)]
  | .inline k => k.positions

/-- The types of the members and of further properties, with their names. -/
def membersWithTypes (members : List Member) (additional : AdditionalProperties) :
    List (String × DataType) :=
  members.map (fun member => (member.name, member.type))
    ++ additional.type?.toList.map (additionalMember, ·)

/-- The types that stand in what a schema turns out to be, with the names of their members. Apart
from these, there are only those of branches. -/
def Classified.types : Classified → List (String × DataType)
  | .pojo (.object o) => membersWithTypes o.members o.additional
  | .pojo (.array _ _ value) => [(value.name, value.type)]
  | .pojo (.typeAlias _ _ type _) => [(valueMember, type)]
  | .pojo (.enum ..) => []
  | .pojo (.composed ..) => []
  | .pojo (.freeForm ..) => []
  | .stub s => membersWithTypes s.members s.additional
  | .plain m => [(valueMember, m.type)]

/-! ## Parts of a classification -/

/-- Whether the warning tells of a schema that is not recognized. -/
def Warning.isUnrecognizedShape : Warning → Bool
  | unrecognizedShape .. => true
  | _ => false

/-- The warnings of schemas that are not recognized. -/
def Survey.unrecognized (survey : Survey) : List Warning :=
  survey.warnings.filter (·.isUnrecognizedShape)

/-- What is to be reported of positions: those at which mapping bottoms out in a schema that is not
recognized, in order. -/
def unrecognizedAt (owner : PojoName) (positions : List Position) : List Warning :=
  (positions.filter (·.schema.bottom.IsUnrecognized)).map (.unrecognizedShape owner ·.member)

/-- A part of a classification fills positions: it reports those that are to be reported, and the
types show what they are to show. -/
structure Fills (owner : PojoName) (positions : List Position) (types : List (String × DataType))
    (before after : Survey) : Prop where
  warnings : after.unrecognized = before.unrecognized ++ unrecognizedAt owner positions
  shows : List.Forall₂ Position.Shows positions types

theorem unrecognizedAt_append (owner : PojoName) (positions positions' : List Position) :
    unrecognizedAt owner (positions ++ positions')
      = unrecognizedAt owner positions ++ unrecognizedAt owner positions' := by
  rw [unrecognizedAt, List.filter_append, List.map_append]
  rfl

namespace Fills

variable {owner : PojoName} {positions positions' : List Position}
  {types types' : List (String × DataType)} {before middle after : Survey}

/-- A part that leaves the reports alone fills no position. -/
theorem none (h : after.unrecognized = before.unrecognized) : Fills owner [] [] before after :=
  ⟨by rw [h, unrecognizedAt]; simp, .nil⟩

theorem append (h : Fills owner positions types before middle)
    (h' : Fills owner positions' types' middle after) :
    Fills owner (positions ++ positions') (types ++ types') before after where
  warnings := by rw [h'.warnings, h.warnings, unrecognizedAt_append, List.append_assoc]
  shows := List.rel_append h.shows h'.shows

end Fills

section

variable (settings : Settings) (owner : PojoName) (survey : Survey)

theorem marks_mapType (member : String) (schema : Schema) :
    (survey.mapType settings owner member schema).1.Marks schema :=
  (marks_mapSchema settings owner member survey.registry schema).1

theorem unrecognized_mapType (member : String) (schema : Schema) :
    (survey.mapType settings owner member schema).2.unrecognized
      = survey.unrecognized
        ++ if schema.bottom.IsUnrecognized then [.unrecognizedShape owner member] else [] := by
  change (survey.warnings ++ _).filter _ = _
  rw [List.filter_append, (marks_mapSchema settings owner member survey.registry schema).2]
  split <;> rfl

/-- **Mapping fills one position.** -/
theorem fills_mapType {position : Position} {type : DataType}
    (h : position.Shows (position.member, type)) :
    Fills owner [position] [(position.member, type)] survey
      (survey.mapType settings owner position.member position.schema).2 where
  warnings := by
    rw [unrecognized_mapType, unrecognizedAt]
    by_cases hbottom : position.schema.bottom.IsUnrecognized <;> simp [hbottom]
  shows := .cons h .nil

theorem fills_value (schema : Schema) :
    Fills owner [.value schema]
      [(valueMember, (survey.mapType settings owner valueMember schema).1)] survey
      (survey.mapType settings owner valueMember schema).2 :=
  fills_mapType settings owner survey
    (.value (marks_mapType settings owner survey valueMember schema))

variable (k : Keywords Schema)

theorem fills_membersOf :
    Fills owner (k.properties.map fun property => .property property.1 property.2)
      ((membersOf settings owner k survey).1.map fun member => (member.name, member.type)) survey
      (membersOf settings owner k survey).2 := by
  unfold membersOf
  induction k.properties generalizing survey with
  | nil => exact .none rfl
  | cons property rest ih =>
    have hshows : Position.Shows (.property property.1 property.2) _ :=
      .property (marks_mapType settings owner survey property.1 property.2)
    exact (fills_mapType settings owner survey hshows).append (ih _)

theorem fills_additionalOf :
    Fills owner k.furtherPositions
      ((additionalOf settings owner k survey).1.type?.toList.map (additionalMember, ·)) survey
      (additionalOf settings owner k survey).2 := by
  -- Where any value is admitted nothing is mapped.
  have hanything : ∀ schema : Schema, schema.isEmpty = true →
      Fills owner [.further schema] [(additionalMember, .freeForm)] survey survey := by
    intro schema hschema
    have hself := Schema.not_isUnrecognized_of_isEmpty hschema
    have hbottom : ¬ schema.bottom.IsUnrecognized := by rwa [Schema.bottom_of_isEmpty hschema]
    refine ⟨by simp [unrecognizedAt, Position.schema, hbottom], .cons (.further hself ?_) .nil⟩
    rw [DataType.Marks, if_neg hbottom]
    rfl
  unfold additionalOf Keywords.furtherPositions
  cases hadditional : k.additional with
  | none => exact .none rfl
  | some additional =>
    cases additional with
    | flag allowed =>
      cases allowed with
      | false => exact .none rfl
      | true => exact hanything (.inline {}) rfl
    | schema value =>
      cases hempty : value.isEmpty with
      | true =>
        simp only [hempty, if_true]
        exact hanything value hempty
      | false =>
        simp only [hempty, Bool.false_eq_true, if_false]
        have hunmapped : (survey.mapType settings owner additionalMember value).1.isUnmapped = true
            ↔ value.IsUnrecognized := isUnmapped_mapSchema_iff ..
        by_cases hvalue : value.IsUnrecognized
        · have hshows : Position.Shows (.further value) _ := .anything hvalue
          rw [AdditionalProperties.ofType, if_pos (hunmapped.mpr hvalue)]
          exact fills_mapType settings owner survey hshows
        · have hmarks := marks_mapType settings owner survey additionalMember value
          have hshows : Position.Shows (.further value) _ := .further hvalue hmarks
          rw [AdditionalProperties.ofType, if_neg (hvalue ∘ hunmapped.mp)]
          exact fills_mapType settings owner survey hshows

theorem fills_object :
    Fills owner k.objectPositions
      (membersWithTypes (objectOf settings owner k survey).1.members
        (objectOf settings owner k survey).1.additional) survey
      (objectOf settings owner k survey).2 :=
  (fills_membersOf settings owner survey k).append (fills_additionalOf settings owner _ k)

/-- Branches are not mapped where they stand, so that nothing is reported of them. -/
theorem unrecognized_branchesOf (kind : CompositionKind) (schemas : List Schema) :
    (branchesOf settings owner kind schemas survey).2.unrecognized = survey.unrecognized := by
  have hfrom : ∀ isNumbered number branches (survey : Survey),
      (survey.visitAll settings owner
        (branchSitesFrom kind isNumbered number branches)).unrecognized = survey.unrecognized := by
    intro isNumbered number branches survey
    induction branches generalizing number survey with
    | nil => rfl
    | cons branch rest ih =>
      cases branch with
      | ref target => exact ih number survey
      | inline k => exact ih (number + 1) _
  rw [survey_branchesOf]
  exact hfrom _ _ _ survey

theorem fills_stub :
    Fills owner k.objectPositions (Classified.stub (stubOf settings owner k survey).1).types
      survey (stubOf settings owner k survey).2 := by
  let afterAll := (branchesOf settings owner .allOf k.allOf survey).2
  let afterOne := (branchesOf settings owner .oneOf k.oneOf afterAll).2
  let afterAny := (branchesOf settings owner .anyOf k.anyOf afterOne).2
  have hbranches : Fills owner [] [] survey afterAny :=
    .none (by simp only [afterAny, afterOne, afterAll, unrecognized_branchesOf])
  exact hbranches.append (fills_object settings owner afterAny k)

end

/-! ## Classification -/

/-- The position of a simple schema is itself, unless it is an enum or admits any object. -/
theorem Keywords.IsSimple.positions_eq {k : Keywords Schema} (h : k.IsSimple) :
    k.positions = if k.enumNames?.isSome || k.isType .object || (Schema.inline k).isEmpty then []
      else [.value (.inline k)] := by
  simp [Keywords.positions, h.isArrayShaped, h.isNullReference, h.hasComposition, h.isObjectShaped]

/-- An enum fills no position, whether some of its values lack a description or not. -/
theorem unrecognized_enumOf {settings : Settings} {owner : PojoName} {k : Keywords Schema}
    {values : List String} {survey survey' : Survey} {pojo : Pojo}
    (h : enumOf settings owner k values survey = .ok (pojo, survey')) :
    survey'.unrecognized = survey.unrecognized := by
  rw [enumOf] at h
  split at h
  · dsimp only at h
    split_ifs at h
    · cases h
      rfl
    · cases h
      simp [Survey.unrecognized, Survey.warn, Warning.isUnrecognizedShape]
  · cases h
    rfl

section

variable {settings : Settings} {pending : Pending} {registry : Registry}
  {classified : Classified} {survey : Survey}

/-- **A classification fills the positions of its schema.** -/
theorem fills_classify (h : classify settings pending registry = .ok (classified, survey)) :
    Fills pending.name pending.schema.positions classified.types { registry } survey := by
  obtain ⟨name, schema⟩ := pending
  cases schema with
  | ref target =>
    cases h
    exact fills_value settings name { registry } (.ref target)
  | inline k =>
    have hwarned : (if k.enumValues.isEmpty then ({ registry } : Survey)
        else Survey.warn { registry } (.nonStringEnum name)).unrecognized
          = ({ registry } : Survey).unrecognized := by
      split <;> rfl
    change Fills name k.positions _ _ _
    cases classifies_classify h with
    | array hshape =>
      rw [Keywords.positions, if_pos hshape]
      exact fills_value settings name { registry } (.inline k)
    | nullReference hshape hreference =>
      simp only [Keywords.positions, hshape, hreference, Bool.false_eq_true, if_false, if_true]
      exact fills_value settings name { registry } (.inline k)
    | composed hshape hreference hcomposition =>
      simp only [Keywords.positions, hshape, hreference, hcomposition, Bool.false_eq_true,
        if_false, if_true]
      exact fills_stub settings name { registry } k
    | object hshape hreference hcomposition hobject =>
      simp only [Keywords.positions, hshape, hreference, hcomposition, hobject,
        Bool.false_eq_true, if_false, if_true]
      exact fills_object settings name { registry } k
    | enum hsimple hvalues henum =>
      obtain ⟨⟨values, rfl⟩, -⟩ := eq_enum_of_enumOf henum
      rw [hsimple.positions_eq, hvalues]
      exact .none (unrecognized_enumOf henum)
    | freeForm hsimple hvalues hfree =>
      rw [hsimple.positions_eq, hvalues, if_pos (by simpa using hfree)]
      exact .none hwarned
    | plain hsimple hvalues hfree hsurvey =>
      rw [hsimple.positions_eq, hvalues, if_neg (by simpa using hfree)]
      subst hsurvey
      exact (Fills.none hwarned).append (fills_value settings name _ (.inline k))

end

/-! ## Faults -/

namespace EnumValue

/-- A line of the text names the value. -/
def IsNamedIn (marker text value : String) : Prop :=
  value ∈ (namings marker text).map (·.1)

/-- Values are reported if and only if the text names some of them, but not all. -/
theorem isEmpty_undescribed_eq_false_iff (marker text : String) (values : List String) :
    (undescribed (describeAll marker text (ofValues values))).isEmpty = false
      ↔ (∃ value ∈ values, IsNamedIn marker text value)
        ∧ ∃ value ∈ values, ¬ IsNamedIn marker text value := by
  have hnamed : ∀ value, Dictionary.lookup? (namings marker text).reverse value = none
      ↔ ¬ IsNamedIn marker text value := by
    intro value
    rw [Dictionary.lookup?_eq_none_iff, Dictionary.keys, List.map_reverse, List.mem_reverse,
      IsNamedIn]
  rw [List.isEmpty_eq_false_iff_exists_mem, ofValues,
    describeAll_eq marker text (nodup_eraseDups values)]
  simp only [mem_undescribed_iff, exists_and_left, List.mem_map, List.mem_eraseDups,
    EnumValue.mk.injEq, exists_exists_and_eq_and, Option.isSome_iff_ne_none, ne_eq, hnamed,
    not_not]
  refine and_congr_right fun _ => ?_
  constructor
  · rintro ⟨_, value, hvalue, rfl, hnone⟩
    exact ⟨value, hvalue, hnone⟩
  · rintro ⟨value, hvalue, hnone⟩
    exact ⟨value, value, hvalue, rfl, hnone⟩

end EnumValue

/-- The schema is an enum of strings, the settings demand that all of its values be described if
any is, and the lines of its description name some of them, but not all. -/
inductive Schema.LacksDescriptions (settings : Settings) : Schema → Prop where
  | intro {k : Keywords Schema} {values : List String} {rule : EnumDescriptionSettings}
      {text : String} (hsimple : k.IsSimple) (hvalues : k.enumNames? = some values)
      (hrule : settings.enumDescription = some rule) (hfail : rule.failOnIncomplete = true)
      (htext : k.description = some text)
      (hsome : ∃ value ∈ values, EnumValue.IsNamedIn rule.marker text value)
      (hnotAll : ∃ value ∈ values, ¬ EnumValue.IsNamedIn rule.marker text value) :
    LacksDescriptions settings (.inline k)

section

variable {settings : Settings} {owner : PojoName} {k : Keywords Schema} {survey : Survey}
  {values : List String}

/-- A simple schema with enum values is classified as an enum, if it is at all. -/
theorem classifyInline_enum (hsimple : k.IsSimple) (hvalues : k.enumNames? = some values) :
    classifyInline settings owner k survey
      = (enumOf settings owner k values survey).map fun found => (.pojo found.1, found.2) := by
  have hnames : (if k.admitsType .string then k.stringEnum? else none) = some values := hvalues
  simp only [classifyInline, hsimple.isArrayShaped, hsimple.isNullReference,
    hsimple.hasComposition, hsimple.isObjectShaped, hnames, Bool.false_eq_true, if_false]
  rfl

theorem enumOf_eq_error_iff (hsimple : k.IsSimple) (hvalues : k.enumNames? = some values) :
    (∃ fault, enumOf settings owner k values survey = .error fault)
      ↔ (Schema.inline k).LacksDescriptions settings := by
  constructor
  · rintro ⟨fault, hfault⟩
    rw [enumOf] at hfault
    split at hfault
    · rename_i rule text hrule htext
      dsimp only at hfault
      split_ifs at hfault with hempty hfail
      obtain ⟨hsome, hnotAll⟩ := (EnumValue.isEmpty_undescribed_eq_false_iff rule.marker text
        values).mp (by simpa using hempty)
      exact .intro hsimple hvalues hrule hfail htext hsome hnotAll
    · cases hfault
  · intro hlacks
    cases hlacks with
    | @intro _ values' rule text _ hvalues' hrule hfail htext hsome hnotAll =>
      obtain rfl : values = values' := Option.some.inj (hvalues.symm.trans hvalues')
      have hempty := (EnumValue.isEmpty_undescribed_eq_false_iff rule.marker text values).mpr
        ⟨hsome, hnotAll⟩
      simp only [enumOf, hrule, htext, hempty, hfail, Bool.false_eq_true, if_false, if_true]
      exact ⟨_, rfl⟩

end

/-- **A classification fails if and only if its schema lacks descriptions.** -/
theorem classify_eq_error_iff {settings : Settings} {pending : Pending} {registry : Registry} :
    (∃ fault, classify settings pending registry = .error fault)
      ↔ pending.schema.LacksDescriptions settings := by
  obtain ⟨name, schema⟩ := pending
  constructor
  · rintro ⟨fault, hfault⟩
    cases schema with
    | ref target => cases hfault
    | inline k =>
      cases classifies_classify hfault with
      | incompleteEnum hsimple hvalues henum =>
        exact (enumOf_eq_error_iff hsimple hvalues).mp ⟨fault, henum⟩
  · intro hlacks
    cases schema with
    | ref target => cases hlacks
    | inline k =>
      obtain ⟨hsimple, values, hvalues⟩ : k.IsSimple ∧ ∃ values, k.enumNames? = some values := by
        cases hlacks with
        | intro hsimple hvalues => exact ⟨hsimple, _, hvalues⟩
      obtain ⟨fault, hfault⟩ :
          ∃ fault, enumOf settings name k values { registry } = .error fault :=
        (enumOf_eq_error_iff hsimple hvalues).mpr hlacks
      refine ⟨fault, ?_⟩
      change classifyInline settings name k { registry } = .error fault
      rw [classifyInline_enum hsimple hvalues, hfault]
      rfl

/-- **Degradation is reported and never aborts.** A classification fails only where the settings
demand that all values of an enum be described if any is, and its description names some but not
all. Otherwise it succeeds. The positions at which mapping bottoms out in a schema that is not
recognized are then reported, each once, in the order in which they are mapped, and with the names
of the schema and the member. Each position has a type; this is unmapped in its innermost part if
the position is reported, and nowhere else. Only where further properties are themselves of a
schema that is not recognized, any value is admitted instead. There are no other types. -/
theorem degradation_reported (settings : Settings) (pending : Pending) (registry : Registry) :
    match classify settings pending registry with
    | .error _ => pending.schema.LacksDescriptions settings
    | .ok (classified, survey) =>
      ¬ pending.schema.LacksDescriptions settings
        ∧ survey.warnings.filter (·.isUnrecognizedShape)
          = (pending.schema.positions.filter (·.schema.bottom.IsUnrecognized)).map
              (.unrecognizedShape pending.name ·.member)
        ∧ List.Forall₂ Position.Shows pending.schema.positions classified.types
        ∧ classified.IsBare := by
  cases hresult : classify settings pending registry with
  | error fault => exact classify_eq_error_iff.mp ⟨fault, hresult⟩
  | ok found =>
    obtain ⟨classified, survey⟩ := found
    have hfills := fills_classify hresult
    refine ⟨fun hlacks => ?_, hfills.warnings, hfills.shows, isBare_of_classify hresult⟩
    obtain ⟨fault, hfault⟩ := classify_eq_error_iff.mpr hlacks
    rw [hresult] at hfault
    cases hfault

end PojoGraph
