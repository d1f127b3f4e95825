import Mathlib.Tactic.SplitIfs
import PojoGraph.Classification

/-!
# Where classification looks

Classification threads a survey through the parts of a schema. All that it adds to the survey
comes from a fixed list of places, the sites of the schema: members whose types are mapped, and
branches written in place, which are named. The list depends on the schema alone, not on the
names taken so far, so facts about surveys are proved for one site and carried along the list.

## Main definitions

* `Site`, `Survey.visit` — a place, and what it adds to a survey.
* `Schema.sites` — the places of a schema in the order in which they are visited.

## Main statements

* `survey_classify` — a classification that succeeds has visited exactly the sites.
* `sites_of_classify_error` — one that fails has nothing to visit.
-/

namespace PojoGraph

/-! ## Schemas -/

/-- Induction over a schema and the schemas inside it. -/
@[elab_as_elim]
theorem Schema.childInduction {motive : Schema → Prop} (ref : ∀ target, motive (.ref target))
    (inline : ∀ k : Keywords Schema, (∀ child ∈ k.children, motive child) → motive (.inline k))
    (schema : Schema) : motive schema := by
  induction hn : schema.size using Nat.strongRecOn generalizing schema with
  | _ n ih =>
    cases schema with
    | ref target => exact ref target
    | inline k =>
      refine inline k fun child hchild => ?_
      have hlt : child.size < n := hn ▸ Schema.size_lt_of_mem_children hchild
      exact ih child.size hlt child rfl

theorem Keywords.mem_children_of_items {k : Keywords Schema} {item : Schema}
    (h : k.items = some item) : item ∈ k.children := by
  simp [Keywords.children, h]

theorem Keywords.mem_children_of_additional {k : Keywords Schema} {value : Schema}
    (h : k.additional = some (.schema value)) : value ∈ k.children := by
  simp [Keywords.children, h]

theorem mapSchema_ref (settings : Settings) (owner : PojoName) (member : String)
    (registry : Registry) (target : String) :
    mapSchema settings owner member registry (.ref target)
      = { type := .object (settings.pojoName (refName target)), registry } := by
  rw [mapSchema]

/-- The type of a schema written in place, by its form. -/
theorem mapSchema_inline (settings : Settings) (owner : PojoName) (member : String)
    (registry : Registry) (k : Keywords Schema) :
    mapSchema settings owner member registry (.inline k) =
      match k.form with
      | .reference target => { type := .object (settings.pojoName (refName target)), registry }
      | .object =>
        let claimed := registry.claim (owner.ofMember member)
        { type := .object claimed.1, found := [⟨claimed.1, .inline k⟩], registry := claimed.2 }
      | .enum values => { type := .leaf (.enum (EnumValue.ofValues values)) {}, registry }
      | .scalar scalar constraints =>
        let type := DataType.scalar scalar constraints
        { type := type.withOverride (settings.overrideFor type), registry }
      | .list =>
        match k.items with
        | some item =>
          (mapSchema settings owner member registry item).mapType
            (.list · { constraints := k.itemConstraints })
        | none => { type := .list .freeForm { constraints := k.itemConstraints }, registry }
      | .map =>
        match k.additional with
        | some (.schema value) =>
          (mapSchema settings owner member registry value).mapType
            (.mapOf · k.propertyConstraints)
        | some (.flag _) =>
          { type := .unmapped, warnings := [.unrecognizedShape owner member], registry }
        | none => { type := .unmapped, warnings := [.unrecognizedShape owner member], registry }
      | .freeForm => { type := .freeForm k.propertyConstraints, registry }
      | .unrecognized =>
        { type := .unmapped, warnings := [.unrecognizedShape owner member], registry } := by
  obtain ⟨facets, properties, additional, items, allOf, oneOf, anyOf⟩ := k
  exact mapSchema.eq_def ..

/-! ## Sites -/

/-- A place where the classification of a schema may find another. -/
inductive Site where
  /-- A member whose type is mapped. -/
  | member (name : String) (schema : Schema)
  /-- A branch written in place, with the part of its name that its keyword gives it. -/
  | branch (tag : String) (schema : Schema)

/-- The survey after a site has been visited. -/
def Survey.visit (settings : Settings) (owner : PojoName) (survey : Survey) : Site → Survey
  | .member name schema => (survey.mapType settings owner name schema).2
  | .branch tag schema => (survey.discover (owner.append tag) schema).2

/-- The sites of a composition's branches; `number` of its inline branches stand before. -/
def branchSitesFrom (kind : CompositionKind) (isNumbered : Bool) :
    (number : Nat) → List Schema → List Site
  | _, [] => []
  | number, .ref _ :: rest => branchSitesFrom kind isNumbered number rest
  | number, .inline k :: rest =>
    .branch (if isNumbered then kind.tag ++ toString number else kind.tag) (.inline k)
      :: branchSitesFrom kind isNumbered (number + 1) rest

/-- The sites of a composition: its inline branches that are not null. -/
def branchSites (kind : CompositionKind) (schemas : List Schema) : List Site :=
  let branches := schemas.filter (!·.isNullType)
  branchSitesFrom kind (1 < branches.countP Schema.isInline) 0 branches

namespace Keywords

variable (k : Keywords Schema)

/-- The sites of declared properties. -/
def memberSites : List Site :=
  k.properties.map fun property => .member property.1 property.2

/-- The site of further properties, where these have a schema that says something. -/
def additionalSites : List Site :=
  match k.additional with
  | some (.schema value) => if value.isEmpty then [] else [.member additionalMember value]
  | _ => []

/-- The site of a schema that is just a type: the schema itself. -/
def valueSites : List Site :=
  [.member valueMember (.inline k)]

/-- The values of the schema as an enum of strings, if it may be one. -/
def enumNames? : Option (List String) :=
  if k.admitsType .string then k.stringEnum? else none

/-- The sites of a schema written in place, by the rule of classification that fits. -/
def sites : List Site :=
  if k.isArrayShaped then k.valueSites
  else if k.hasNullBranch && k.singleReference?.isSome then k.valueSites
  else if k.hasComposition then
    branchSites .allOf k.allOf ++ branchSites .oneOf k.oneOf ++ branchSites .anyOf k.anyOf
      ++ k.memberSites ++ k.additionalSites
  else if k.isObjectShaped then k.memberSites ++ k.additionalSites
  else if k.enumNames?.isSome || k.isType .object || (Schema.inline k).isEmpty then []
  else k.valueSites

end Keywords

/-- The sites of a schema. -/
def Schema.sites : Schema → List Site
  | .ref target => [.member valueMember (.ref target)]
  | .inline k => k.sites

/-- The survey after all sites of a list have been visited. -/
def Survey.visitAll (settings : Settings) (owner : PojoName) (survey : Survey)
    (sites : List Site) : Survey :=
  sites.foldl (Survey.visit settings owner) survey

section

variable (settings : Settings) (owner : PojoName) (survey : Survey)

theorem visitAll_append (before after : List Site) :
    survey.visitAll settings owner (before ++ after)
      = (survey.visitAll settings owner before).visitAll settings owner after :=
  List.foldl_append

/-! ## Parts of a classification -/

theorem snd_mapWithState {α β σ : Type} (f : σ → α → β × σ) (state : σ) (as : List α) :
    (mapWithState f state as).2 = as.foldl (fun state a => (f state a).2) state := by
  induction as generalizing state with
  | nil => rfl
  | cons a rest ih => simp [mapWithState, ih]

theorem survey_membersOf (k : Keywords Schema) :
    (membersOf settings owner k survey).2 = survey.visitAll settings owner k.memberSites := by
  rw [membersOf, snd_mapWithState, Survey.visitAll, Keywords.memberSites, List.foldl_map]
  rfl

theorem survey_additionalOf (k : Keywords Schema) :
    (additionalOf settings owner k survey).2
      = survey.visitAll settings owner k.additionalSites := by
  unfold additionalOf Keywords.additionalSites
  split
  · simp [*, Survey.visitAll]
  · simp [*, Survey.visitAll]
  · simp [*, Survey.visitAll]
  · rename_i value hvalue
    rw [hvalue]
    by_cases h : value.isEmpty <;> simp [h, Survey.visitAll, Survey.visit]

theorem survey_branchesFrom (kind : CompositionKind) (isNumbered : Bool) (number : Nat)
    (branches : List Schema) :
    (mapWithState (branchOf settings owner kind isNumbered) (number, survey) branches).2.2
      = survey.visitAll settings owner (branchSitesFrom kind isNumbered number branches) := by
  induction branches generalizing number survey with
  | nil => rfl
  | cons branch rest ih =>
    cases branch with
    | ref target => exact ih survey number
    | inline k => exact ih _ (number + 1)

theorem survey_branchesOf (kind : CompositionKind) (schemas : List Schema) :
    (branchesOf settings owner kind schemas survey).2
      = survey.visitAll settings owner (branchSites kind schemas) := by
  unfold branchesOf branchSites
  cases hbranches : schemas.filter (!·.isNullType) with
  | nil => rfl
  | cons branch rest =>
    simp only [List.isEmpty_cons, Bool.false_eq_true, if_false]
    exact survey_branchesFrom settings owner survey kind _ 0 (branch :: rest)

theorem survey_stubOf (k : Keywords Schema) :
    (stubOf settings owner k survey).2 =
      survey.visitAll settings owner (branchSites .allOf k.allOf ++ branchSites .oneOf k.oneOf
        ++ branchSites .anyOf k.anyOf ++ k.memberSites ++ k.additionalSites) := by
  simp only [stubOf, visitAll_append, ← survey_branchesOf, ← survey_membersOf,
    ← survey_additionalOf]

theorem survey_objectOf (k : Keywords Schema) :
    (objectOf settings owner k survey).2
      = survey.visitAll settings owner (k.memberSites ++ k.additionalSites) := by
  simp only [objectOf, visitAll_append, ← survey_membersOf, ← survey_additionalOf]

end

/-! ## Rules of classification -/

/-- The rules for types that are not plain do not fit: the schema describes no arrays, is not
just a nullable reference, is not composed and describes no objects of its own. -/
structure Keywords.IsSimple (k : Keywords Schema) : Prop where
  isArrayShaped : k.isArrayShaped = false
  isNullReference : (k.hasNullBranch && k.singleReference?.isSome) = false
  hasComposition : k.hasComposition = false
  isObjectShaped : k.isObjectShaped = false

section

variable (settings : Settings) (owner : PojoName) (k : Keywords Schema) (survey : Survey)

/-- The rules by which a schema written in place is classified, each with all that keeps the
rules before it from applying. -/
inductive Classifies : Except Fault (Classified × Survey) → Prop where
  | array (hshape : k.isArrayShaped = true) :
    Classifies (.ok (.pojo (.array owner k.description
        { name := valueMember
          type := (survey.mapType settings owner valueMember (.inline k)).1
          necessity := .required
          nullability := .ofBool k.isNullable }),
      (survey.mapType settings owner valueMember (.inline k)).2))
  | nullReference (hshape : k.isArrayShaped = false)
      (hreference : (k.hasNullBranch && k.singleReference?.isSome) = true) :
    Classifies (.ok (.plain (plainOf settings owner (.inline k) k.description true survey).1,
      (plainOf settings owner (.inline k) k.description true survey).2))
  | composed (hshape : k.isArrayShaped = false)
      (hreference : (k.hasNullBranch && k.singleReference?.isSome) = false)
      (hcomposition : k.hasComposition = true) :
    Classifies (.ok (.stub (stubOf settings owner k survey).1,
      (stubOf settings owner k survey).2))
  | object (hshape : k.isArrayShaped = false)
      (hreference : (k.hasNullBranch && k.singleReference?.isSome) = false)
      (hcomposition : k.hasComposition = false) (hobject : k.isObjectShaped = true) :
    Classifies (.ok (.pojo (.object (objectOf settings owner k survey).1),
      (objectOf settings owner k survey).2))
  | enum (hsimple : k.IsSimple) {values : List String} (hvalues : k.enumNames? = some values)
      {pojo : Pojo} {survey' : Survey}
      (henum : enumOf settings owner k values survey = .ok (pojo, survey')) :
    Classifies (.ok (.pojo pojo, survey'))
  | incompleteEnum (hsimple : k.IsSimple) {values : List String}
      (hvalues : k.enumNames? = some values) {fault : Fault}
      (henum : enumOf settings owner k values survey = .error fault) :
    Classifies (.error fault)
  | freeForm (hsimple : k.IsSimple) (hvalues : k.enumNames? = none)
      (hfree : (k.isType .object || (Schema.inline k).isEmpty) = true) :
    Classifies (.ok (.pojo (.freeForm owner k.description k.propertyConstraints),
      if k.enumValues.isEmpty then survey else survey.warn (.nonStringEnum owner)))
  | plain (hsimple : k.IsSimple) (hvalues : k.enumNames? = none)
      (hfree : (k.isType .object || (Schema.inline k).isEmpty) = false) {survey' : Survey}
      (hsurvey : survey'
        = if k.enumValues.isEmpty then survey else survey.warn (.nonStringEnum owner)) :
    Classifies (.ok
      (.plain (plainOf settings owner (.inline k) k.description k.isNullable survey').1,
        (plainOf settings owner (.inline k) k.description k.isNullable survey').2))

/-- Every classification follows one of the rules. -/
theorem classifies_classifyInline :
    Classifies settings owner k survey (classifyInline settings owner k survey) := by
  rw [classifyInline]
  cases hshape : k.isArrayShaped with
  | true => exact .array hshape
  | false =>
  cases hreference : k.hasNullBranch && k.singleReference?.isSome with
  | true => exact .nullReference hshape hreference
  | false =>
  cases hcomposition : k.hasComposition with
  | true => exact .composed hshape hreference hcomposition
  | false =>
  cases hobject : k.isObjectShaped with
  | true => exact .object hshape hreference hcomposition hobject
  | false =>
  have hsimple : k.IsSimple := ⟨hshape, hreference, hcomposition, hobject⟩
  have hnames : (if k.admitsType .string then k.stringEnum? else none) = k.enumNames? := rfl
  rw [hnames]
  cases hvalues : k.enumNames? with
  | some values =>
    change Classifies settings owner k survey
      (enumOf settings owner k values survey >>= fun found => .ok (.pojo found.1, found.2))
    cases henum : enumOf settings owner k values survey with
    | error fault => exact .incompleteEnum hsimple hvalues henum
    | ok result => exact .enum hsimple hvalues henum
  | none =>
    cases hfree : k.isType .object || (Schema.inline k).isEmpty with
    | true => exact .freeForm hsimple hvalues hfree
    | false => exact .plain hsimple hvalues hfree rfl

variable {settings owner k survey}

theorem classifies_classify {name : PojoName} {registry : Registry}
    {result : Except Fault (Classified × Survey)}
    (h : classify settings ⟨name, .inline k⟩ registry = result) :
    Classifies settings name k { registry } result := by
  rw [← h]
  exact classifies_classifyInline settings name k { registry }

/-- An enum has the name and the description of its schema, and adds nothing to the survey but a
warning. -/
theorem eq_enum_of_enumOf {values : List String} {survey' : Survey} {pojo : Pojo}
    (h : enumOf settings owner k values survey = .ok (pojo, survey')) :
    (∃ values', pojo = .enum owner k.description values')
      ∧ survey'.registry = survey.registry ∧ survey'.found = survey.found := by
  rw [enumOf] at h
  split at h
  · dsimp only at h
    split_ifs at h <;> cases h <;> exact ⟨⟨_, rfl⟩, rfl, rfl⟩
  · cases h
    exact ⟨⟨_, rfl⟩, rfl, rfl⟩

/-- The sites of a simple schema: itself, unless it is an enum or admits any object. -/
theorem Keywords.IsSimple.sites_eq (h : k.IsSimple) :
    k.sites = if k.enumNames?.isSome || k.isType .object || (Schema.inline k).isEmpty then []
      else k.valueSites := by
  simp [Keywords.sites, h.isArrayShaped, h.isNullReference, h.hasComposition, h.isObjectShaped]

theorem survey_classifyInline {classified : Classified} {survey' : Survey}
    (h : classifyInline settings owner k survey = .ok (classified, survey')) :
    survey'.registry = (survey.visitAll settings owner k.sites).registry
      ∧ survey'.found = (survey.visitAll settings owner k.sites).found := by
  have hrule := classifies_classifyInline settings owner k survey
  rw [h] at hrule
  cases hrule with
  | array hshape =>
    have hsites : k.sites = k.valueSites := by simp [Keywords.sites, hshape]
    rw [hsites]
    exact ⟨rfl, rfl⟩
  | nullReference hshape hreference =>
    have hsites : k.sites = k.valueSites := by simp [Keywords.sites, hshape, hreference]
    rw [hsites]
    exact ⟨rfl, rfl⟩
  | composed hshape hreference hcomposition =>
    rw [survey_stubOf]
    simp [Keywords.sites, hshape, hreference, hcomposition]
  | object hshape hreference hcomposition hobject =>
    rw [survey_objectOf]
    simp [Keywords.sites, hshape, hreference, hcomposition, hobject]
  | enum hsimple hvalues henum =>
    have hsites : k.sites = [] := by simp [hsimple.sites_eq, hvalues]
    rw [hsites]
    exact (eq_enum_of_enumOf henum).2
  | freeForm hsimple hvalues hfree =>
    have hsites : k.sites = [] := by
      rw [hsimple.sites_eq, hvalues, if_pos (by simpa using hfree)]
    rw [hsites]
    split <;> exact ⟨rfl, rfl⟩
  | plain hsimple hvalues hfree hsurvey =>
    have hsites : k.sites = k.valueSites := by
      rw [hsimple.sites_eq, hvalues, if_neg (by simpa using hfree)]
    rw [hsites, hsurvey]
    split <;> exact ⟨rfl, rfl⟩

/-- **A classification that succeeds has visited exactly the sites of its schema**, in order:
its survey has the names taken and the schemas found there. -/
theorem survey_classify {pending : Pending} {registry : Registry} {classified : Classified}
    {survey' : Survey} (h : classify settings pending registry = .ok (classified, survey')) :
    survey'.registry
        = (Survey.visitAll settings pending.name { registry } pending.schema.sites).registry
      ∧ survey'.found
        = (Survey.visitAll settings pending.name { registry } pending.schema.sites).found := by
  obtain ⟨name, schema⟩ := pending
  cases schema with
  | ref target =>
    cases h
    exact ⟨rfl, rfl⟩
  | inline k => exact survey_classifyInline h

/-- What a schema turns out to be has the name under which the schema was classified. -/
theorem name_of_classify {pending : Pending} {registry : Registry} {classified : Classified}
    {survey' : Survey} (h : classify settings pending registry = .ok (classified, survey')) :
    classified.name = pending.name := by
  obtain ⟨name, schema⟩ := pending
  cases schema with
  | ref target =>
    cases h
    rfl
  | inline k =>
    cases classifies_classify h with
    | enum hsimple hvalues henum =>
      obtain ⟨⟨values, rfl⟩, -⟩ := eq_enum_of_enumOf henum
      rfl
    | _ => rfl

/-- A classification fails only over an enum, in which there is nothing to visit. -/
theorem sites_of_classify_error {pending : Pending} {registry : Registry} {fault : Fault}
    (h : classify settings pending registry = .error fault) : pending.schema.sites = [] := by
  obtain ⟨name, schema⟩ := pending
  cases schema with
  | ref target => cases h
  | inline k =>
    cases classifies_classify h with
    | incompleteEnum hsimple hvalues henum => simp [Schema.sites, hsimple.sites_eq, hvalues]

end

end PojoGraph
