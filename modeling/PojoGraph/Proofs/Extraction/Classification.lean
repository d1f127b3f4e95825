import PojoGraph.Proofs.Resolution.Revised
import PojoGraph.Proofs.Sweep.Waves

/-!
# Objects written in place, and references to them

A property may have an object type written in place, or be a reference to a schema that declares the
same type. The schema that has the property then turns out to be the same, but for the description
of that member: of an object written in place it is that of the object, of a reference there is
none. And it finds the same, but for the object itself.

## Main definitions

* `Keywords.withProperties` — a schema with other properties.
* `Keywords.IsExtractable` — a schema written in place becomes a type of its own.
* `bareMember`, `bareWarnings` — the member of a property whose names are all granted.
* `GiveAlike` — properties that give the same members, up to a revision.

## Main statements

* `membersOf_of_grants`, `additionalOf_of_grants` — parts of a classification with granted names.
* `GiveAlike.outcome` — schemas that differ in such properties only turn out to be the same.
-/

namespace PojoGraph

namespace Keywords

/-- The schema with other properties. -/
def withProperties (k : Keywords Schema) (properties : List (String × Schema)) : Keywords Schema :=
  { k with properties }

/-- Where the schema is written in place it becomes a type of its own, whose values are objects and
never null. -/
structure IsExtractable (inner : Keywords Schema) : Prop where
  isNullable : inner.isNullable = false
  isArrayShaped : inner.isArrayShaped = false
  isInlineObject : inner.isInlineObject = true
  singleReference? : inner.singleReference? = none

theorem IsExtractable.form_eq {inner : Keywords Schema} (h : inner.IsExtractable) :
    inner.form = .object :=
  form_eq_object_iff.mpr ⟨h.isInlineObject, h.singleReference?⟩

/-- Without a composition nothing is found in branches. -/
theorem branchSites_eq_nil {k : Keywords Schema} (h : k.hasComposition = false) :
    branchSites .allOf k.allOf ++ branchSites .oneOf k.oneOf ++ branchSites .anyOf k.anyOf
      = [] := by
  have hnone : (k.allOf = [] ∧ k.oneOf = []) ∧ k.anyOf = [] := by
    simpa [hasComposition] using h
  rw [hnone.1.1, hnone.1.2, hnone.2]
  rfl

variable (k : Keywords Schema) {properties : List (String × Schema)} (hproperties : properties ≠ [])

include hproperties

theorem singleReference?_withProperties :
    (k.withProperties properties).singleReference? = none := by
  rw [singleReference?, withProperties, if_neg (by simpa using hproperties)]

theorem isObjectShaped_withProperties : (k.withProperties properties).isObjectShaped = true := by
  have hsome : properties.isEmpty = false := List.isEmpty_eq_false_iff.mpr hproperties
  simp [isObjectShaped, withProperties, hsome]

/-- A schema with properties finds schemas in its branches, its members and its further
properties. -/
theorem sites_withProperties (hshape : k.isArrayShaped = false) :
    (k.withProperties properties).sites
      = branchSites .allOf k.allOf ++ branchSites .oneOf k.oneOf ++ branchSites .anyOf k.anyOf
        ++ (k.withProperties properties).memberSites ++ k.additionalSites := by
  have hshape' : (k.withProperties properties).isArrayShaped = false := hshape
  have hsingle := k.singleReference?_withProperties hproperties
  have hobject := k.isObjectShaped_withProperties hproperties
  have hcomposition : (k.withProperties properties).hasComposition = k.hasComposition := rfl
  rw [sites, hshape', hsingle, hobject, hcomposition]
  cases hcomposed : k.hasComposition with
  | true =>
    simp
    rfl
  | false =>
    rw [branchSites_eq_nil hcomposed]
    simp
    rfl

/-- A schema with properties is composed or an object. -/
theorem classifyInline_withProperties (settings : Settings) (owner : PojoName) (survey : Survey)
    (hshape : k.isArrayShaped = false) :
    classifyInline settings owner (k.withProperties properties) survey
      = if k.hasComposition then
          .ok (.stub (stubOf settings owner (k.withProperties properties) survey).1,
            (stubOf settings owner (k.withProperties properties) survey).2)
        else
          .ok (.pojo (.object (objectOf settings owner (k.withProperties properties) survey).1),
            (objectOf settings owner (k.withProperties properties) survey).2) := by
  have hshape' : (k.withProperties properties).isArrayShaped = false := hshape
  have hsingle := k.singleReference?_withProperties hproperties
  have hobject := k.isObjectShaped_withProperties hproperties
  have hcomposition : (k.withProperties properties).hasComposition = k.hasComposition := rfl
  rw [classifyInline, hshape', hsingle, hobject, hcomposition]
  simp

end Keywords

/-! ## Granted names -/

/-- Names that some registry grants are granted where no names are taken. -/
theorem Registry.Grants.bare {registry : Registry} {names : List PojoName}
    (h : registry.Grants names) : ({} : Registry).Grants names :=
  grants_iff.mpr ⟨(grants_iff.mp h).1, fun _ _ hmem => nomatch hmem⟩

section

variable (settings : Settings) (owner : PojoName)

/-- The member of a property, if it gets the names that it asks for. -/
def bareMember (required : List String) (property : String × Schema) : Member :=
  (memberOf settings owner required { registry := {} } property).1

/-- What the member of a property is warned of, if it gets the names that it asks for. -/
def bareWarnings (property : String × Schema) : List Warning :=
  (mapSchema settings owner property.1 {} property.2).warnings

variable {survey : Survey} {names : List PojoName}

theorem mapType_of_grants (survey : Survey) {member : String} {schema : Schema}
    (h : survey.registry.Grants (Site.derivedNames owner (.member member schema) ++ names)) :
    (survey.mapType settings owner member schema).1
        = (mapSchema settings owner member {} schema).type
      ∧ (survey.mapType settings owner member schema).2.warnings
        = survey.warnings ++ bareWarnings settings owner (member, schema)
      ∧ (survey.mapType settings owner member schema).2.registry.Grants names := by
  obtain ⟨hfirst, hrest⟩ := Registry.grants_append_iff.mp h
  obtain ⟨htype, -, hwarnings⟩ := mapSchema_of_grants settings owner member hfirst hfirst.bare
  refine ⟨htype, congrArg _ hwarnings, ?_⟩
  rwa [Site.derivedNames, claimAll_mapSchema settings owner] at hrest

/-- **Members do not depend on the names taken**, if they get those that they ask for. -/
theorem membersOf_of_grants {k : Keywords Schema}
    (h : survey.registry.Grants (k.memberSites.flatMap (Site.derivedNames owner) ++ names)) :
    (membersOf settings owner k survey).1 = k.properties.map (bareMember settings owner k.required)
      ∧ (membersOf settings owner k survey).2.warnings = survey.warnings
        ++ k.properties.flatMap (bareWarnings settings owner)
      ∧ (membersOf settings owner k survey).2.registry.Grants names := by
  rw [membersOf]
  rw [Keywords.memberSites, List.flatMap_map] at h
  generalize k.properties = properties at h ⊢
  induction properties generalizing survey with
  | nil => exact ⟨rfl, (List.append_nil _).symm, h⟩
  | cons property rest ih =>
    rw [List.flatMap_cons, List.append_assoc] at h
    obtain ⟨htype, hwarnings, hgrants⟩ := mapType_of_grants settings owner survey h
    obtain ⟨hmembers, hall, hlast⟩ := ih hgrants
    have hmember : (memberOf settings owner k.required survey property).1
        = bareMember settings owner k.required property := by
      simp only [bareMember, memberOf, htype]
      rfl
    refine ⟨?_, ?_, hlast⟩
    · rw [List.map_cons, ← hmember, ← hmembers]
      rfl
    · rw [List.flatMap_cons, ← List.append_assoc, ← hwarnings, ← hall]
      rfl

theorem additionalOf_of_grants {k : Keywords Schema}
    (h : survey.registry.Grants (k.additionalSites.flatMap (Site.derivedNames owner))) :
    (additionalOf settings owner k survey).1
        = (additionalOf settings owner k { registry := {} }).1
      ∧ (additionalOf settings owner k survey).2.warnings
        = survey.warnings ++ (additionalOf settings owner k { registry := {} }).2.warnings := by
  unfold additionalOf
  unfold Keywords.additionalSites at h
  cases hadditional : k.additional with
  | none => exact ⟨rfl, (List.append_nil _).symm⟩
  | some additional =>
    cases additional with
    | flag allowed => cases allowed <;> exact ⟨rfl, (List.append_nil _).symm⟩
    | schema value =>
      cases hempty : value.isEmpty with
      | true => simp [hempty]
      | false =>
        simp only [hadditional, hempty, Bool.false_eq_true, if_false, List.flatMap_cons,
          List.flatMap_nil] at h
        obtain ⟨htype, hwarnings, -⟩ := mapType_of_grants settings owner survey h
        obtain ⟨hbare, hbareWarnings, -⟩ :=
          mapType_of_grants settings owner { registry := {} } h.bare
        simp only [hempty, Bool.false_eq_true, if_false, htype, hbare, hwarnings, hbareWarnings,
          List.nil_append, and_self]

end

/-! ## Other properties -/

/-- Up to a revision the two lists of properties give the same members, under the same keys, and
the same is warned of. -/
structure GiveAlike (settings : Settings) (owner : PojoName) (required : List String)
    (r : Revision) (properties properties' : List (String × Schema)) : Prop where
  keys : properties.map (·.1) = properties'.map (·.1)
  members : (properties.map (bareMember settings owner required)).map r.member
    = (properties'.map (bareMember settings owner required)).map r.member
  warnings : properties.flatMap (bareWarnings settings owner)
    = properties'.flatMap (bareWarnings settings owner)

namespace GiveAlike

variable {settings : Settings} {owner : PojoName} {k : Keywords Schema} {r : Revision}
  {properties properties' : List (String × Schema)}
  (h : GiveAlike settings owner k.required r properties properties') {survey : Survey}

include h

theorem requiredAdditional_eq : (k.withProperties properties).requiredAdditional
    = (k.withProperties properties').requiredAdditional := by
  have hany : ∀ name, properties.any (·.1 == name) = properties'.any (·.1 == name) := by
    intro name
    have hkeys := congrArg (List.any · (· == name)) h.keys
    rwa [List.any_map, List.any_map] at hkeys
  simp only [Keywords.requiredAdditional, Keywords.withProperties, hany]

section

variable
  (hgrants : survey.registry.Grants (((k.withProperties properties).memberSites
    ++ k.additionalSites).flatMap (Site.derivedNames owner)))
  (hgrants' : survey.registry.Grants (((k.withProperties properties').memberSites
    ++ k.additionalSites).flatMap (Site.derivedNames owner)))

include hgrants hgrants'

theorem parts :
    (membersOf settings owner (k.withProperties properties) survey).1.map r.member
        = (membersOf settings owner (k.withProperties properties') survey).1.map r.member
      ∧ (additionalOf settings owner k
          (membersOf settings owner (k.withProperties properties) survey).2).1
        = (additionalOf settings owner k
          (membersOf settings owner (k.withProperties properties') survey).2).1
      ∧ (additionalOf settings owner k
          (membersOf settings owner (k.withProperties properties) survey).2).2.warnings
        = (additionalOf settings owner k
          (membersOf settings owner (k.withProperties properties') survey).2).2.warnings := by
  rw [List.flatMap_append] at hgrants hgrants'
  obtain ⟨hmembers, hwarnings, hrest⟩ := membersOf_of_grants settings owner hgrants
  obtain ⟨hmembers', hwarnings', hrest'⟩ := membersOf_of_grants settings owner hgrants'
  obtain ⟨hadditional, hlast⟩ := additionalOf_of_grants settings owner hrest
  obtain ⟨hadditional', hlast'⟩ := additionalOf_of_grants settings owner hrest'
  refine ⟨?_, hadditional.trans hadditional'.symm, ?_⟩
  · rw [hmembers, hmembers']
    exact h.members
  · rw [hlast, hlast', hwarnings, hwarnings']
    exact congrArg (survey.warnings ++ · ++ _) h.warnings

variable (survey) in
theorem objectOf :
    (PojoGraph.objectOf settings owner (k.withProperties properties) survey).1.revise r
        = (PojoGraph.objectOf settings owner (k.withProperties properties') survey).1.revise r
      ∧ (PojoGraph.objectOf settings owner (k.withProperties properties) survey).2.warnings
        = (PojoGraph.objectOf settings owner (k.withProperties properties') survey).2.warnings := by
  obtain ⟨hmembers, hadditional, hwarnings⟩ := h.parts hgrants hgrants'
  refine ⟨?_, hwarnings⟩
  rw [ObjectPojo.revise_eq, ObjectPojo.revise_eq, ObjectPojo.mk.injEq]
  exact ⟨rfl, rfl, hmembers, h.requiredAdditional_eq,
    congrArg (AdditionalProperties.map r.type) hadditional, rfl, rfl, rfl, rfl⟩

end

variable (survey) in
theorem stubOf
    (hgrants : survey.registry.Grants ((branchSites .allOf k.allOf ++ branchSites .oneOf k.oneOf
      ++ branchSites .anyOf k.anyOf ++ (k.withProperties properties).memberSites
      ++ k.additionalSites).flatMap (Site.derivedNames owner)))
    (hgrants' : survey.registry.Grants ((branchSites .allOf k.allOf ++ branchSites .oneOf k.oneOf
      ++ branchSites .anyOf k.anyOf ++ (k.withProperties properties').memberSites
      ++ k.additionalSites).flatMap (Site.derivedNames owner))) :
    (PojoGraph.stubOf settings owner (k.withProperties properties) survey).1.revise r
        = (PojoGraph.stubOf settings owner (k.withProperties properties') survey).1.revise r
      ∧ (PojoGraph.stubOf settings owner (k.withProperties properties) survey).2.warnings
        = (PojoGraph.stubOf settings owner (k.withProperties properties') survey).2.warnings := by
  have hbranches : ∀ {names : List PojoName},
      survey.registry.Grants ((branchSites .allOf k.allOf ++ branchSites .oneOf k.oneOf
        ++ branchSites .anyOf k.anyOf).flatMap (Site.derivedNames owner) ++ names) →
      Registry.Grants (branchesOf settings owner .anyOf k.anyOf (branchesOf settings owner .oneOf
        k.oneOf (branchesOf settings owner .allOf k.allOf survey).2).2).2.registry names := by
    intro names hnames
    simp only [List.flatMap_append, List.append_assoc] at hnames
    have hagrees : survey.Agrees survey _ := ⟨rfl, rfl, hnames, hnames⟩
    obtain ⟨-, hallOf⟩ := asksFor_branchesOf settings owner .allOf k.allOf hagrees
    obtain ⟨-, honeOf⟩ := asksFor_branchesOf settings owner .oneOf k.oneOf hallOf
    obtain ⟨-, hanyOf⟩ := asksFor_branchesOf settings owner .anyOf k.anyOf honeOf
    exact hanyOf.grants
  rw [List.append_assoc, List.flatMap_append] at hgrants hgrants'
  obtain ⟨hmembers, hadditional, hwarnings⟩ := h.parts (hbranches hgrants) (hbranches hgrants')
  refine ⟨?_, hwarnings⟩
  rw [Stub.revise, Stub.revise, Stub.mk.injEq]
  exact ⟨rfl, rfl, hmembers, h.requiredAdditional_eq,
    congrArg (AdditionalProperties.map r.type) hadditional, rfl, rfl, rfl, rfl⟩

/-- **Schemas whose properties give the same members turn out to be the same**, up to the
revision, and are warned of the same. -/
theorem outcome (hshape : k.isArrayShaped = false) (hproperties : properties ≠ [])
    (hproperties' : properties' ≠ [])
    (hgrants : ({} : Registry).Grants
      (Pending.derivedNames ⟨owner, .inline (k.withProperties properties)⟩))
    (hgrants' : ({} : Registry).Grants
      (Pending.derivedNames ⟨owner, .inline (k.withProperties properties')⟩)) :
    ∃ classified classified' found found' warnings,
      Pending.outcome settings ⟨owner, .inline (k.withProperties properties)⟩
          = .ok (classified, found, warnings)
        ∧ Pending.outcome settings ⟨owner, .inline (k.withProperties properties')⟩
          = .ok (classified', found', warnings)
        ∧ classified.revise r = classified'.revise r := by
  have houtcome : ∀ {properties : List (String × Schema)}, properties ≠ [] →
      Pending.outcome settings ⟨owner, .inline (k.withProperties properties)⟩
        = withoutNames (
          let stub :=
            PojoGraph.stubOf settings owner (k.withProperties properties) { registry := {} }
          let object :=
            PojoGraph.objectOf settings owner (k.withProperties properties) { registry := {} }
          if k.hasComposition then .ok (.stub stub.1, stub.2)
          else .ok (.pojo (.object object.1), object.2)) :=
    fun hproperties => congrArg withoutNames
      (k.classifyInline_withProperties hproperties settings owner { registry := {} } hshape)
  rw [Pending.derivedNames, Schema.derivedNames, Schema.sites,
    k.sites_withProperties hproperties hshape] at hgrants
  rw [Pending.derivedNames, Schema.derivedNames, Schema.sites,
    k.sites_withProperties hproperties' hshape] at hgrants'
  rw [houtcome hproperties, houtcome hproperties']
  have hresult : ∀ {classified classified' : Classified} {survey survey' : Survey},
      survey.warnings = survey'.warnings → classified.revise r = classified'.revise r →
      ∃ first second found found' warnings,
        withoutNames (.ok (classified, survey)) = .ok (first, found, warnings)
          ∧ withoutNames (.ok (classified', survey')) = .ok (second, found', warnings)
          ∧ first.revise r = second.revise r :=
    fun hwarnings hrevise => ⟨_, _, _, _, _, rfl, by rw [hwarnings]; rfl, hrevise⟩
  cases hcomposed : k.hasComposition with
  | true =>
    obtain ⟨hstub, hwarnings⟩ := h.stubOf { registry := {} } hgrants hgrants'
    exact hresult hwarnings (congrArg Classified.stub hstub)
  | false =>
    rw [Keywords.branchSites_eq_nil hcomposed, List.nil_append] at hgrants hgrants'
    obtain ⟨hobject, hwarnings⟩ := h.objectOf { registry := {} } hgrants hgrants'
    exact hresult hwarnings (congrArg (Classified.pojo ∘ Pojo.object) hobject)

end GiveAlike

end PojoGraph
