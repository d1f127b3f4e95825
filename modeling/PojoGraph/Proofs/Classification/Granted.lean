import PojoGraph.Proofs.Classification.Names
import PojoGraph.Proofs.Names.Granting

/-!
# Classification with granted names

All that a classification learns from the names taken before are the names that it gets for what
it finds. Where it gets each name that it asks for, it does not matter which others are taken: the
outcome, the schemas found and the warnings are the same. This is shown part by part, for two
surveys that differ in the names taken alone. Each part asks for some names, and leaves two such
surveys behind in which the names for the parts to come are still granted.

## Main definitions

* `Survey.Agrees` — surveys that differ in the names taken, and both grant some names.
* `AsksFor` — a part of a classification that asks for certain names.

## Main statements

* `classify_of_grants` — a classification does not depend on the names taken before, if these
  leave all names free that it asks for.
-/

namespace PojoGraph

/-! ## Parts of a classification -/

/-- The surveys have found the same and warn of the same, and both grant the names. -/
structure Survey.Agrees (survey survey' : Survey) (names : List PojoName) : Prop where
  found : survey.found = survey'.found
  warnings : survey.warnings = survey'.warnings
  grants : survey.registry.Grants names
  grants' : survey'.registry.Grants names

/-- Of the names taken the part depends only on those that it asks for: with surveys that grant
these and further names, it has the same result, and leaves surveys that grant the others. -/
def AsksFor {α : Type} (part : Survey → α × Survey) (names : List PojoName) : Prop :=
  ∀ ⦃rest survey survey'⦄, survey.Agrees survey' (names ++ rest) →
    (part survey).1 = (part survey').1 ∧ (part survey).2.Agrees (part survey').2 rest

namespace AsksFor

variable {α β : Type} {names names' : List PojoName}

theorem pure (a : α) : AsksFor (fun survey => (a, survey)) [] :=
  fun _ _ _ h => ⟨rfl, h⟩

/-- One part after another, which may depend on the result of the first. -/
theorem bind {part : Survey → α × Survey} {next : α → Survey → β × Survey}
    (h : AsksFor part names) (hnext : ∀ a, AsksFor (next a) names') :
    AsksFor (fun survey => next (part survey).1 (part survey).2) (names ++ names') := by
  intro rest survey survey' hagrees
  rw [List.append_assoc] at hagrees
  obtain ⟨hresult, hafter⟩ := h hagrees
  dsimp only
  rw [← hresult]
  exact hnext _ hafter

/-- The result of a part is used further. -/
theorem map {part : Survey → α × Survey} (f : α → β) (h : AsksFor part names) :
    AsksFor (fun survey => (f (part survey).1, (part survey).2)) names := by
  intro rest survey survey' hagrees
  obtain ⟨hresult, hafter⟩ := h hagrees
  exact ⟨congrArg f hresult, hafter⟩

end AsksFor

section

variable (settings : Settings) (owner : PojoName)

/-! ## Sites -/

/-- Of the names taken the type of a schema depends only on those for what is nested in it. -/
theorem mapSchema_of_grants (member : String) {registry registry' : Registry} {schema : Schema}
    (h : registry.Grants (schema.nested.map fun _ => owner.ofMember member))
    (h' : registry'.Grants (schema.nested.map fun _ => owner.ofMember member)) :
    (mapSchema settings owner member registry schema).type
        = (mapSchema settings owner member registry' schema).type
      ∧ (mapSchema settings owner member registry schema).found
        = (mapSchema settings owner member registry' schema).found
      ∧ (mapSchema settings owner member registry schema).warnings
        = (mapSchema settings owner member registry' schema).warnings := by
  induction schema using Schema.childInduction with
  | ref target => rw [mapSchema_ref, mapSchema_ref]; exact ⟨rfl, rfl, rfl⟩
  | inline k ih =>
    rw [Schema.nested_inline] at h h'
    rw [mapSchema_inline, mapSchema_inline]
    cases hform : k.form with
    | object =>
      rw [hform] at h h'
      have hname := Registry.choose_eq_self_iff.mpr (Registry.grants_cons_iff.mp h).1
      have hname' := Registry.choose_eq_self_iff.mpr (Registry.grants_cons_iff.mp h').1
      simp only [Registry.fst_claim, hname, hname', and_self]
    | list =>
      cases hitems : k.items with
      | none => exact ⟨rfl, rfl, rfl⟩
      | some item =>
        simp only [hform, hitems] at h h'
        obtain ⟨htype, hfound, hwarnings⟩ :=
          ih item (Keywords.mem_children_of_items hitems) h h'
        exact ⟨congrArg (DataType.list · _) htype, hfound, hwarnings⟩
    | map =>
      cases hadditional : k.additional with
      | none => exact ⟨rfl, rfl, rfl⟩
      | some additional =>
        cases additional with
        | flag _ => exact ⟨rfl, rfl, rfl⟩
        | schema value =>
          simp only [hform, hadditional] at h h'
          obtain ⟨htype, hfound, hwarnings⟩ :=
            ih value (Keywords.mem_children_of_additional hadditional) h h'
          exact ⟨congrArg (DataType.mapOf · _) htype, hfound, hwarnings⟩
    | _ => exact ⟨rfl, rfl, rfl⟩

theorem asksFor_mapType (member : String) (schema : Schema) :
    AsksFor (fun survey => survey.mapType settings owner member schema)
      (Site.derivedNames owner (.member member schema)) := by
  intro rest survey survey' hagrees
  obtain ⟨hgrants, hrest⟩ := Registry.grants_append_iff.mp hagrees.grants
  obtain ⟨hgrants', hrest'⟩ := Registry.grants_append_iff.mp hagrees.grants'
  obtain ⟨htype, hfound, hwarnings⟩ :=
    mapSchema_of_grants settings owner member hgrants hgrants'
  have hregistry := claimAll_mapSchema settings owner member
  refine ⟨htype, ?_, ?_, ?_, ?_⟩
  · exact congrArg₂ (· ++ ·) hagrees.found hfound
  · exact congrArg₂ (· ++ ·) hagrees.warnings hwarnings
  · rwa [Site.derivedNames, hregistry] at hrest
  · rwa [Site.derivedNames, hregistry] at hrest'

theorem asksFor_discover (name : PojoName) (schema : Schema) :
    AsksFor (fun survey => survey.discover name schema) [name] := by
  intro rest survey survey' hagrees
  obtain ⟨hfree, hrest⟩ := Registry.grants_cons_iff.mp hagrees.grants
  obtain ⟨hfree', hrest'⟩ := Registry.grants_cons_iff.mp hagrees.grants'
  have hname := Registry.choose_eq_self_iff.mpr hfree
  have hname' := Registry.choose_eq_self_iff.mpr hfree'
  refine ⟨hname.trans hname'.symm, ?_, hagrees.warnings, hrest, hrest'⟩
  simp only [Survey.discover, Registry.fst_claim, hname, hname', hagrees.found]

/-! ## Members and branches -/

theorem asksFor_mapWithState {α β : Type} {f : Survey → α → β × Survey}
    {names : α → List PojoName} (h : ∀ a, AsksFor (f · a) (names a)) (as : List α) :
    AsksFor (fun survey => mapWithState f survey as) (as.flatMap names) := by
  induction as with
  | nil => exact .pure []
  | cons a rest ih => exact (h a).bind fun b => ih.map (b :: ·)

theorem asksFor_memberOf (required : List String) (property : String × Schema) :
    AsksFor (memberOf settings owner required · property)
      (Site.derivedNames owner (.member property.1 property.2)) := by
  intro rest survey survey' hagrees
  obtain ⟨htype, hafter⟩ := asksFor_mapType settings owner property.1 property.2 hagrees
  refine ⟨?_, hafter⟩
  simp only [memberOf, htype]

theorem asksFor_membersOf (k : Keywords Schema) :
    AsksFor (membersOf settings owner k) (k.memberSites.flatMap (Site.derivedNames owner)) := by
  rw [Keywords.memberSites, List.flatMap_map]
  exact asksFor_mapWithState (asksFor_memberOf settings owner k.required) k.properties

theorem asksFor_additionalOf (k : Keywords Schema) :
    AsksFor (additionalOf settings owner k)
      (k.additionalSites.flatMap (Site.derivedNames owner)) := by
  unfold additionalOf Keywords.additionalSites
  cases hadditional : k.additional with
  | none => exact .pure _
  | some additional =>
    cases additional with
    | flag allowed => cases allowed <;> exact .pure _
    | schema value =>
      cases hempty : value.isEmpty with
      | true => simpa [hempty] using AsksFor.pure _
      | false =>
        simpa [hempty] using (asksFor_mapType settings owner additionalMember value).map _

/-- The branches from some number on. -/
theorem asksFor_branchesFrom (kind : CompositionKind) (isNumbered : Bool) (number : Nat)
    (branches : List Schema) :
    AsksFor (fun survey =>
        let (names, state) := mapWithState (branchOf settings owner kind isNumbered)
          (number, survey) branches
        (names, state.2))
      ((branchSitesFrom kind isNumbered number branches).flatMap (Site.derivedNames owner)) := by
  induction branches generalizing number with
  | nil => exact .pure []
  | cons branch rest ih =>
    cases branch with
    | ref target => exact (ih number).map (settings.pojoName (refName target) :: ·)
    | inline k =>
      exact (asksFor_discover (owner.append
        (if isNumbered then kind.tag ++ toString number else kind.tag)) (.inline k)).bind
          fun name => (ih (number + 1)).map (name :: ·)

theorem asksFor_branchesOf (kind : CompositionKind) (schemas : List Schema) :
    AsksFor (branchesOf settings owner kind schemas)
      ((branchSites kind schemas).flatMap (Site.derivedNames owner)) := by
  unfold branchesOf branchSites
  cases hbranches : schemas.filter (!·.isNullType) with
  | nil => exact .pure none
  | cons branch rest =>
    exact (asksFor_branchesFrom settings owner kind _ 0 (branch :: rest)).map some

/-! ## Types -/

theorem asksFor_stubOf (k : Keywords Schema) :
    AsksFor (stubOf settings owner k)
      ((branchSites .allOf k.allOf ++ branchSites .oneOf k.oneOf ++ branchSites .anyOf k.anyOf
        ++ k.memberSites ++ k.additionalSites).flatMap (Site.derivedNames owner)) := by
  let discriminator := k.discriminator.map (sketchOf settings)
  have hstub := (asksFor_branchesOf settings owner .allOf k.allOf).bind fun allOf =>
    (asksFor_branchesOf settings owner .oneOf k.oneOf).bind fun oneOf =>
    (asksFor_branchesOf settings owner .anyOf k.anyOf).bind fun anyOf =>
    (asksFor_membersOf settings owner k).bind fun members =>
    (asksFor_additionalOf settings owner k).map fun additional =>
      { name := owner
        description := k.description
        members
        requiredAdditional := k.requiredAdditional
        additional
        constraints := k.propertyConstraints
        allOf
        oneOf := oneOf.map (⟨·, if k.oneOf.isEmpty then none else discriminator⟩)
        anyOf := anyOf.map (⟨·, if k.oneOf.isEmpty then discriminator else none⟩) : Stub }
  simp only [List.flatMap_append, List.append_assoc]
  exact hstub

theorem asksFor_objectOf (k : Keywords Schema) :
    AsksFor (objectOf settings owner k)
      ((k.memberSites ++ k.additionalSites).flatMap (Site.derivedNames owner)) := by
  have hobject := (asksFor_membersOf settings owner k).bind fun members =>
    (asksFor_additionalOf settings owner k).map fun additional =>
      { name := owner
        description := k.description
        members
        requiredAdditional := k.requiredAdditional
        additional
        constraints := k.propertyConstraints : ObjectPojo }
  rw [List.flatMap_append]
  exact hobject

theorem asksFor_plainOf (schema : Schema) (description : Option String) (isNullable : Bool) :
    AsksFor (plainOf settings owner schema description isNullable)
      (Site.derivedNames owner (.member valueMember schema)) := by
  have hplain := (asksFor_mapType settings owner valueMember schema).map fun type =>
    { name := owner, description, type, nullability := .ofBool isNullable : PlainMember }
  exact hplain

/-! ## Classification -/

/-- What a classification gives besides the names taken. -/
def withoutNames (result : Except Fault (Classified × Survey)) :
    Except Fault (Classified × List Pending × List Warning) :=
  result.map fun (classified, survey) => (classified, survey.found, survey.warnings)

variable {settings owner}

theorem Survey.Agrees.withoutNames_eq {survey survey' : Survey} {names : List PojoName}
    (h : survey.Agrees survey' names) (classified : Classified) :
    withoutNames (.ok (classified, survey)) = withoutNames (.ok (classified, survey')) := by
  simp only [withoutNames, Except.map, h.found, h.warnings]

theorem AsksFor.withoutNames_eq {α : Type} {part : Survey → α × Survey} {names : List PojoName}
    (h : AsksFor part names) {survey survey' : Survey} (hagrees : survey.Agrees survey' names)
    (f : α → Classified) : withoutNames (.ok (f (part survey).1, (part survey).2))
      = withoutNames (.ok (f (part survey').1, (part survey').2)) := by
  rw [← List.append_nil names] at hagrees
  obtain ⟨hresult, hafter⟩ := h hagrees
  rw [hresult]
  exact hafter.withoutNames_eq _

theorem Survey.Agrees.warn {survey survey' : Survey} {names : List PojoName}
    (h : survey.Agrees survey' names) (warning : Warning) :
    (survey.warn warning).Agrees (survey'.warn warning) names :=
  ⟨h.found, congrArg (· ++ [warning]) h.warnings, h.grants, h.grants'⟩

theorem Survey.Agrees.warn_unless {survey survey' : Survey} {names : List PojoName}
    (h : survey.Agrees survey' names) (condition : Bool) (warning : Warning) :
    (if condition then survey else survey.warn warning).Agrees
      (if condition then survey' else survey'.warn warning) names := by
  cases condition with
  | true => exact h
  | false => exact h.warn warning

/-- Enums ask for no names. -/
theorem withoutNames_enumOf {survey survey' : Survey} {names : List PojoName}
    (h : survey.Agrees survey' names) (k : Keywords Schema) (values : List String) :
    withoutNames (enumOf settings owner k values survey >>= fun (pojo, survey) =>
        .ok (.pojo pojo, survey))
      = withoutNames (enumOf settings owner k values survey' >>= fun (pojo, survey) =>
        .ok (.pojo pojo, survey)) := by
  rw [enumOf, enumOf]
  split
  · dsimp only
    split_ifs
    · exact h.withoutNames_eq _
    · rfl
    · exact (h.warn _).withoutNames_eq _
  · exact h.withoutNames_eq _

theorem withoutNames_classifyInline {survey survey' : Survey} {k : Keywords Schema}
    (h : survey.Agrees survey' (k.sites.flatMap (Site.derivedNames owner))) :
    withoutNames (classifyInline settings owner k survey)
      = withoutNames (classifyInline settings owner k survey') := by
  have hvalue : ∀ {survey survey' : Survey},
      survey.Agrees survey' (k.valueSites.flatMap (Site.derivedNames owner)) →
        survey.Agrees survey' (Site.derivedNames owner (.member valueMember (.inline k))) := by
    intro survey survey' hagrees
    rwa [Keywords.valueSites, List.flatMap_cons, List.flatMap_nil, List.append_nil] at hagrees
  rw [classifyInline, classifyInline]
  -- The cases are the rules of classification, in the order in which they are tried.
  cases hshape : k.isArrayShaped with
  | true =>
    rw [Keywords.sites, if_pos hshape] at h
    exact (asksFor_mapType settings owner valueMember (.inline k)).withoutNames_eq (hvalue h)
      fun type => .pojo (.array owner k.description
        { name := valueMember, type, necessity := .required
          nullability := .ofBool k.isNullable })
  | false =>
  cases hreference : k.hasNullBranch && k.singleReference?.isSome with
  | true =>
    simp only [Keywords.sites, hshape, hreference, Bool.false_eq_true, if_false, if_true] at h
    exact (asksFor_plainOf settings owner (.inline k) k.description true).withoutNames_eq
      (hvalue h) .plain
  | false =>
  cases hcomposition : k.hasComposition with
  | true =>
    simp only [Keywords.sites, hshape, hreference, hcomposition, Bool.false_eq_true, if_false,
      if_true] at h
    exact (asksFor_stubOf settings owner k).withoutNames_eq h .stub
  | false =>
  cases hobject : k.isObjectShaped with
  | true =>
    simp only [Keywords.sites, hshape, hreference, hcomposition, hobject, Bool.false_eq_true,
      if_false, if_true] at h
    exact (asksFor_objectOf settings owner k).withoutNames_eq h fun object => .pojo (.object object)
  | false =>
  have hsimple : k.IsSimple := ⟨hshape, hreference, hcomposition, hobject⟩
  have hnames : (if k.admitsType .string then k.stringEnum? else none) = k.enumNames? := rfl
  rw [hsimple.sites_eq] at h
  rw [hnames]
  cases hvalues : k.enumNames? with
  | some values => exact withoutNames_enumOf h k values
  | none =>
    cases hfree : k.isType .object || (Schema.inline k).isEmpty with
    | true =>
      rw [if_pos (by simpa [hvalues] using hfree)] at h
      exact (AsksFor.pure (Classified.pojo (.freeForm owner k.description
        k.propertyConstraints))).withoutNames_eq (h.warn_unless _ _) id
    | false =>
      rw [if_neg (by simpa [hvalues] using hfree)] at h
      exact (asksFor_plainOf settings owner (.inline k) k.description
        k.isNullable).withoutNames_eq (hvalue (h.warn_unless _ _)) .plain

/-- **A classification does not depend on the names taken before**, if these leave all names free
that it asks for. -/
theorem classify_of_grants {pending : Pending} {registry registry' : Registry}
    (h : registry.Grants (pending.schema.derivedNames pending.name))
    (h' : registry'.Grants (pending.schema.derivedNames pending.name)) :
    withoutNames (classify settings pending registry)
      = withoutNames (classify settings pending registry') := by
  have hagrees : Survey.Agrees { registry } { registry := registry' }
      (pending.schema.derivedNames pending.name) := ⟨rfl, rfl, h, h'⟩
  obtain ⟨name, schema⟩ := pending
  cases schema with
  | ref target =>
    have hsite : Schema.derivedNames (.ref target) name
        = Site.derivedNames name (.member valueMember (.ref target)) := List.append_nil _
    rw [hsite] at hagrees
    exact (asksFor_plainOf settings name (.ref target) none false).withoutNames_eq hagrees .plain
  | inline k => exact withoutNames_classifyInline hagrees

end

end PojoGraph
