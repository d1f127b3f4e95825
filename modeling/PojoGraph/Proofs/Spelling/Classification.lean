import PojoGraph.Proofs.Spelling.Schemas

/-!
# Classification of respelled schemas

A schema and its respelling are classified alike: every part of the type is the same, the same
names are taken and the same is warned of. What is found in them waits under the same names, and
the schemas found are respellings of each other.

## Main definitions

* `Pending.Respelled`, `Survey.Respelled` — the same under the same names, up to the spelling.
* `Alike`, `Survey.Outcomes` — the same result beside related states.

## Main statements

* `mapSchema_respelled` — respelled schemas have the same type.
* `classify_respelled` — **respelled schemas turn out to be the same**.
-/

namespace PojoGraph

/-! ## Surveys -/

/-- The second schema is a respelling of the first, under the same name. -/
structure Pending.Respelled (pending pending' : Pending) : Prop where
  name : pending.name = pending'.name
  schema : pending.schema.Respelled pending'.schema

/-- The same has been found, up to the spelling of the schemas. -/
structure Survey.Respelled (survey survey' : Survey) : Prop where
  registry : survey.registry = survey'.registry
  found : List.Forall₂ Pending.Respelled survey.found survey'.found
  warnings : survey.warnings = survey'.warnings

/-- The same type, beside the same findings. -/
structure Mapped.Respelled (mapped mapped' : Mapped) : Prop where
  type : mapped.type = mapped'.type
  found : List.Forall₂ Pending.Respelled mapped.found mapped'.found
  warnings : mapped.warnings = mapped'.warnings
  registry : mapped.registry = mapped'.registry

/-- The same part of a type, beside states that are related. -/
structure Alike {α σ : Type} (s : σ → σ → Prop) (result result' : α × σ) : Prop where
  part : result.1 = result'.1
  state : s result.2 result'.2

/-- The same fault, or the same result beside respelled surveys. -/
inductive Survey.Outcomes {α : Type} :
    Except Fault (α × Survey) → Except Fault (α × Survey) → Prop
  | error (fault : Fault) : Outcomes (.error fault) (.error fault)
  | ok {result result' : α × Survey} (h : Alike Survey.Respelled result result') :
      Outcomes (.ok result) (.ok result')

theorem Survey.Respelled.warn {survey survey' : Survey} (h : survey.Respelled survey')
    (warning : Warning) : (survey.warn warning).Respelled (survey'.warn warning) where
  registry := h.registry
  found := h.found
  warnings := congrArg (· ++ [warning]) h.warnings

theorem Mapped.Respelled.refl_of_found {mapped : Mapped} (h : mapped.found = []) :
    mapped.Respelled mapped :=
  ⟨rfl, h ▸ .nil, rfl, rfl⟩

theorem Mapped.Respelled.mapType {mapped mapped' : Mapped} (h : mapped.Respelled mapped')
    (f : DataType → DataType) : (mapped.mapType f).Respelled (mapped'.mapType f) :=
  ⟨congrArg f h.type, h.found, h.warnings, h.registry⟩

/-- A state carried through related lists by steps that keep states related gives the same
results. -/
theorem Alike.mapWithState {α α' β σ : Type} {r : α → α' → Prop} {s : σ → σ → Prop}
    {f : σ → α → β × σ} {g : σ → α' → β × σ}
    (hstep : ∀ a a' state state', r a a' → s state state' → Alike s (f state a) (g state' a'))
    {as : List α} {as' : List α'} (h : List.Forall₂ r as as') {state state' : σ}
    (hstate : s state state') :
    Alike s (PojoGraph.mapWithState f state as) (PojoGraph.mapWithState g state' as') := by
  induction h generalizing state state' with
  | nil => exact ⟨rfl, hstate⟩
  | cons hhead _ ih =>
    have hfirst := hstep _ _ _ _ hhead hstate
    have hrest := ih hfirst.state
    exact ⟨congrArg₂ List.cons hfirst.part hrest.part, hrest.state⟩

variable (settings : Settings) (owner : PojoName)

/-! ## Types -/

/-- **Schemas in the two spellings have the same type.** -/
theorem mapSchema_respelled (member : String) (registry : Registry) {schema schema' : Schema}
    (h : schema.Respelled schema') :
    (mapSchema settings owner member registry schema).Respelled
      (mapSchema settings owner member registry schema') := by
  induction schema using Schema.childInduction generalizing schema' with
  | ref target =>
    cases h
    exact .refl_of_found (by rw [mapSchema_ref])
  | inline k ih =>
    have hinline := h
    cases h with
    | @inline _ k' =>
      rw [mapSchema_inline, mapSchema_inline, hinline.form]
      cases k'.form with
      | reference target => exact .refl_of_found rfl
      | object => exact ⟨rfl, .cons ⟨rfl, hinline⟩ .nil, rfl, rfl⟩
      | enum values => exact .refl_of_found rfl
      | scalar scalar constraints => exact .refl_of_found rfl
      | list =>
        have hconstraints := hinline.agree.congr Facets.itemConstraints fun _ => rfl
        obtain ⟨hk, hk'⟩ | ⟨item, item', hk, hk', hitem⟩ := hinline.items
        · rw [hk, hk', hconstraints]
          exact .refl_of_found rfl
        · rw [hk, hk', hconstraints]
          exact (ih item (Keywords.mem_children_of_items hk) hitem).mapType _
      | map =>
        have hconstraints := hinline.agree.congr Facets.propertyConstraints fun _ => rfl
        obtain ⟨hk, hk'⟩ | ⟨_, hk, hk'⟩ | ⟨value, value', hk, hk', hvalue⟩ := hinline.additional
        · rw [hk, hk']
          exact .refl_of_found rfl
        · rw [hk, hk']
          exact .refl_of_found rfl
        · rw [hk, hk', hconstraints]
          exact (ih value (Keywords.mem_children_of_additional hk) hvalue).mapType _
      | freeForm =>
        rw [hinline.agree.congr Facets.propertyConstraints fun _ => rfl]
        exact .refl_of_found rfl
      | unrecognized => exact .refl_of_found rfl

variable {survey survey' : Survey} (hsurvey : survey.Respelled survey')

include hsurvey

theorem mapType_respelled (member : String) {schema schema' : Schema}
    (h : schema.Respelled schema') :
    Alike Survey.Respelled (survey.mapType settings owner member schema)
      (survey'.mapType settings owner member schema') := by
  have hmapped := mapSchema_respelled settings owner member survey.registry h
  rw [Survey.mapType, Survey.mapType, ← hsurvey.registry]
  exact ⟨hmapped.type, hmapped.registry, List.rel_append hsurvey.found hmapped.found,
    congrArg₂ (· ++ ·) hsurvey.warnings hmapped.warnings⟩

omit settings owner in
theorem discover_respelled (name : PojoName) {schema schema' : Schema}
    (h : schema.Respelled schema') :
    Alike Survey.Respelled (survey.discover name schema) (survey'.discover name schema') := by
  rw [Survey.discover, Survey.discover, ← hsurvey.registry]
  exact ⟨rfl, rfl, List.rel_append hsurvey.found (.cons ⟨rfl, h⟩ .nil), hsurvey.warnings⟩

theorem memberOf_respelled (required : List String) {property property' : String × Schema}
    (h : Schema.RespelledEntry property property') :
    Alike Survey.Respelled (memberOf settings owner required survey property)
      (memberOf settings owner required survey' property') := by
  obtain ⟨name, schema⟩ := property
  obtain ⟨name', schema'⟩ := property'
  obtain ⟨rfl, hschema⟩ : name = name' ∧ schema.Respelled schema' := ⟨h.key, h.schema⟩
  have htype := mapType_respelled settings owner hsurvey name hschema
  refine ⟨?_, htype.state⟩
  have hinline := hschema
  cases hschema with
  | ref target => simp only [memberOf, htype.part]
  | inline facets =>
    have hdescription := facets.agree.congr Facets.description fun _ => rfl
    simp only [memberOf, htype.part, hdescription, hinline.isNullable]

/-! ## Branches -/

omit hsurvey in
/-- The name of a branch and the number of branches before do not depend on the spelling. -/
theorem branchOf_respelled (kind : CompositionKind) (isNumbered : Bool) {schema schema' : Schema}
    (h : schema.Respelled schema') {state state' : Nat × Survey}
    (hstate : Alike Survey.Respelled state state') :
    Alike (Alike Survey.Respelled) (branchOf settings owner kind isNumbered state schema)
      (branchOf settings owner kind isNumbered state' schema') := by
  obtain ⟨number, survey⟩ := state
  obtain ⟨number', survey'⟩ := state'
  obtain ⟨rfl, hsurvey⟩ : number = number' ∧ survey.Respelled survey' :=
    ⟨hstate.part, hstate.state⟩
  have hinline := h
  cases h with
  | ref target => exact ⟨rfl, rfl, hsurvey⟩
  | inline =>
    have hfound := discover_respelled hsurvey
      (owner.append (if isNumbered then kind.tag ++ toString number else kind.tag)) hinline
    exact ⟨hfound.part, rfl, hfound.state⟩

theorem branchesOf_respelled (kind : CompositionKind) {schemas schemas' : List Schema}
    (h : List.Forall₂ Schema.Respelled schemas schemas') :
    Alike Survey.Respelled (branchesOf settings owner kind schemas survey)
      (branchesOf settings owner kind schemas' survey') := by
  have hbranches := Schema.Respelled.filter_isNullType h
  rw [branchesOf, branchesOf]
  generalize schemas.filter (!·.isNullType) = branches at hbranches ⊢
  generalize schemas'.filter (!·.isNullType) = branches' at hbranches ⊢
  rw [isEmpty_eq_of_forall₂ hbranches, Schema.Respelled.countP_isInline hbranches]
  split
  · exact ⟨rfl, hsurvey⟩
  · have hbegin : Alike Survey.Respelled (0, survey) (0, survey') := ⟨rfl, hsurvey⟩
    have hnames := Alike.mapWithState (r := Schema.Respelled)
      (fun _ _ _ _ hschema hstate => branchOf_respelled settings owner kind
        (1 < branches'.countP Schema.isInline) hschema hstate) hbranches hbegin
    exact ⟨congrArg some hnames.part, hnames.state.state⟩

/-! ## Types of keywords -/

theorem plainOf_respelled (description : Option String) (isNullable : Bool)
    {schema schema' : Schema} (h : schema.Respelled schema') :
    Alike Survey.Respelled (plainOf settings owner schema description isNullable survey)
      (plainOf settings owner schema' description isNullable survey') := by
  have htype := mapType_respelled settings owner hsurvey valueMember h
  refine ⟨?_, htype.state⟩
  simp only [plainOf, htype.part]

variable {k k' : Keywords Schema} (h : (Schema.inline k).Respelled (.inline k'))

include h

theorem membersOf_respelled : Alike Survey.Respelled (membersOf settings owner k survey)
    (membersOf settings owner k' survey') := by
  rw [membersOf, membersOf, h.required]
  exact Alike.mapWithState (r := Schema.RespelledEntry)
    (fun _ _ _ _ hproperty hstate => memberOf_respelled settings owner hstate _ hproperty)
    h.properties hsurvey

theorem additionalOf_respelled : Alike Survey.Respelled (additionalOf settings owner k survey)
    (additionalOf settings owner k' survey') := by
  rw [additionalOf, additionalOf]
  obtain ⟨hk, hk'⟩ | ⟨allowed, hk, hk'⟩ | ⟨value, value', hk, hk', hvalue⟩ := h.additional <;>
    rw [hk, hk']
  · exact ⟨rfl, hsurvey⟩
  · cases allowed <;> exact ⟨rfl, hsurvey⟩
  · have htype := mapType_respelled settings owner hsurvey additionalMember hvalue
    dsimp only
    rw [hvalue.isEmpty]
    split
    · exact ⟨rfl, hsurvey⟩
    · exact ⟨congrArg AdditionalProperties.ofType htype.part, htype.state⟩

theorem objectOf_respelled :
    Alike Survey.Respelled (objectOf settings owner k survey)
      (objectOf settings owner k' survey') := by
  have hmembers := membersOf_respelled settings owner hsurvey h
  have hadditional := additionalOf_respelled settings owner hmembers.state h
  refine ⟨?_, hadditional.state⟩
  have hdescription := h.agree.congr Facets.description fun _ => rfl
  have hconstraints := h.agree.congr Facets.propertyConstraints fun _ => rfl
  simp only [objectOf, hmembers.part, hadditional.part, hdescription, hconstraints,
    h.requiredAdditional]

theorem stubOf_respelled :
    Alike Survey.Respelled (stubOf settings owner k survey) (stubOf settings owner k' survey') := by
  have hallOf := branchesOf_respelled settings owner hsurvey .allOf h.allOf
  have honeOf := branchesOf_respelled settings owner hallOf.state .oneOf h.oneOf
  have hanyOf := branchesOf_respelled settings owner honeOf.state .anyOf h.anyOf
  have hmembers := membersOf_respelled settings owner hanyOf.state h
  have hadditional := additionalOf_respelled settings owner hmembers.state h
  refine ⟨?_, hadditional.state⟩
  have hdescription := h.agree.congr Facets.description fun _ => rfl
  have hconstraints := h.agree.congr Facets.propertyConstraints fun _ => rfl
  have hdiscriminator := h.agree.congr Facets.discriminator fun _ => rfl
  simp only [stubOf, hallOf.part, honeOf.part, hanyOf.part, hmembers.part, hadditional.part,
    hdescription, hconstraints, hdiscriminator, h.requiredAdditional,
    isEmpty_eq_of_forall₂ h.oneOf]

/-! ## Classification -/

/-- Which enum a schema is depends on its description alone. -/
theorem enumOf_respelled (values : List String) :
    Survey.Outcomes (enumOf settings owner k values survey)
      (enumOf settings owner k' values survey') := by
  rw [enumOf, enumOf, h.agree.congr Facets.description fun _ => rfl]
  split
  · dsimp only
    split_ifs
    · exact .ok ⟨rfl, hsurvey⟩
    · exact .error _
    · exact .ok ⟨rfl, hsurvey.warn _⟩
  · exact .ok ⟨rfl, hsurvey⟩

theorem classifyInline_respelled : Survey.Outcomes (classifyInline settings owner k survey)
    (classifyInline settings owner k' survey') := by
  have hdescription := h.agree.congr Facets.description fun _ => rfl
  have henum := h.enumNames?
  rw [Keywords.enumNames?, Keywords.enumNames?] at henum
  -- Both follow the same rule, since each rule asks questions that have one answer.
  rw [classifyInline, classifyInline, h.isArrayShaped, h.hasNullBranch, h.singleReference?,
    h.hasComposition, h.isObjectShaped, henum, h.agree.isType, h.isEmpty, hdescription,
    h.isNullable]
  split
  · have htype := mapType_respelled settings owner hsurvey valueMember h
    exact .ok ⟨congrArg (fun type => Classified.pojo (.array owner k'.description
      { name := valueMember, type, necessity := .required
        nullability := .ofBool k'.isNullable })) htype.part, htype.state⟩
  split
  · have hplain := plainOf_respelled settings owner hsurvey k'.description true h
    exact .ok ⟨congrArg Classified.plain hplain.part, hplain.state⟩
  split
  · have hstub := stubOf_respelled settings owner hsurvey h
    exact .ok ⟨congrArg Classified.stub hstub.part, hstub.state⟩
  split
  · have hobject := objectOf_respelled settings owner hsurvey h
    exact .ok ⟨congrArg (fun object => Classified.pojo (.object object)) hobject.part,
      hobject.state⟩
  split
  · rename_i values _
    have houtcomes := enumOf_respelled settings owner hsurvey h values
    generalize enumOf settings owner k values survey = result at houtcomes ⊢
    generalize enumOf settings owner k' values survey' = result' at houtcomes ⊢
    cases houtcomes with
    | error fault => exact .error fault
    | ok hresult => exact .ok ⟨congrArg Classified.pojo hresult.part, hresult.state⟩
  · have hvalues := h.agree.congr Facets.enumValues fun _ => rfl
    have hconstraints := h.agree.congr Facets.propertyConstraints fun _ => rfl
    have hwarned : (if k.enumValues.isEmpty then survey
          else survey.warn (.nonStringEnum owner)).Respelled
        (if k'.enumValues.isEmpty then survey'
          else survey'.warn (.nonStringEnum owner)) := by
      rw [hvalues]
      split_ifs
      · exact hsurvey
      · exact hsurvey.warn _
    dsimp only
    split
    · rw [hconstraints]
      exact .ok ⟨rfl, hwarned⟩
    · have hplain := plainOf_respelled settings owner hwarned k'.description k'.isNullable h
      exact .ok ⟨congrArg Classified.plain hplain.part, hplain.state⟩

omit hsurvey h owner in
/-- **Schemas in the two spellings turn out to be the same.** -/
theorem classify_respelled {pending pending' : Pending} (h : pending.Respelled pending')
    (registry : Registry) :
    Survey.Outcomes (classify settings pending registry)
      (classify settings pending' registry) := by
  obtain ⟨name, schema⟩ := pending
  obtain ⟨name', schema'⟩ := pending'
  obtain ⟨rfl, hschema⟩ : name = name' ∧ schema.Respelled schema' := ⟨h.name, h.schema⟩
  have hsurvey : Survey.Respelled { registry } { registry } := ⟨rfl, .nil, rfl⟩
  have hinline := hschema
  cases hschema with
  | ref target =>
    have hplain := plainOf_respelled settings name hsurvey none false hinline
    exact .ok ⟨congrArg Classified.plain hplain.part, hplain.state⟩
  | inline => exact classifyInline_respelled settings name hsurvey hinline

end PojoGraph
