import PojoGraph.Proofs.PojoSet.Copies

/-!
# Names that a classified schema refers to

What a schema is classified as refers to types by their names. Each of these names is that of a
reference that stands in the schema, or has been claimed for a schema found in it; and each claimed
name is referred to once. So nothing is found that is not referred to, and nothing is referred to
that was to be found and was not. This is shown part by part: a part of a classification adds to
what has been found, and accounts for the names that it refers to.

## Main definitions

* `Classified.referredNames` — the names referred to.
* `Schema.StandsIn` — a schema in another, or that one itself.
* `Accounts` — names accounted for by references and found schemas.
* `Gives` — what a part of a classification gives together with what it finds.

## Main statements

* `accounts_mapSchema` — the type of a schema accounts for what is found in it.
* `accounts_classify` — what a schema is classified as accounts for all that is found in it.
* `discovery_accounted` — found schemas have new names, which are referred to once.
-/

namespace PojoGraph

/-! ## Names referred to -/

/-- The names that a schema refers to by what it turns out to be: by its branches, and by the types
of its members, of its value, of its further properties, or its plain type. -/
def Classified.referredNames : Classified → List PojoName
  | .pojo p => p.references
  | .stub s => s.branchNames ++ (s.members.flatMap (·.type.references) ++ s.additional.references)
  | .plain m => m.type.references

/-- The schema stands in the other, at any depth, or is that one. -/
def Schema.StandsIn : Schema → Schema → Prop :=
  Relation.ReflTransGen IsChild

/-! ## Accounts -/

/-- Up to their order, the names are those that some references lead to, and those of the found
schemas. -/
def Accounts (settings : Settings) (T : String → Prop) (names : List PojoName)
    (found : List Pending) : Prop :=
  ∃ targets : List String, (∀ target ∈ targets, T target)
    ∧ names.Perm (targets.map settings.referenceName ++ found.map (·.name))

namespace Accounts

variable {settings : Settings} {T : String → Prop} {names names' : List PojoName}
  {found found' : List Pending}

theorem nil : Accounts settings T [] [] :=
  ⟨[], fun _ h => (List.not_mem_nil h).elim, .refl []⟩

theorem reference {target : String} (h : T target) :
    Accounts settings T [settings.referenceName target] [] := by
  refine ⟨[target], fun other hother => ?_, .refl _⟩
  rwa [List.mem_singleton.mp hother]

theorem claimed (pending : Pending) : Accounts settings T [pending.name] [pending] :=
  ⟨[], fun _ h => (List.not_mem_nil h).elim, .refl _⟩

theorem append (h : Accounts settings T names found) (h' : Accounts settings T names' found') :
    Accounts settings T (names ++ names') (found ++ found') := by
  obtain ⟨targets, htargets, hperm⟩ := h
  obtain ⟨targets', htargets', hperm'⟩ := h'
  refine ⟨targets ++ targets', fun target htarget => ?_, ?_⟩
  · exact (List.mem_append.mp htarget).elim (htargets target) (htargets' target)
  · refine (hperm.append hperm').trans ?_
    rw [List.map_append, List.map_append, List.append_assoc, List.append_assoc]
    exact List.Perm.append_left _ (List.perm_append_comm_assoc ..)

end Accounts

/-! ## Parts of a classification -/

/-- The part of a classification adds to what has been found, and its result stands in the given
relation to what it adds. -/
def Gives {α : Type} (part : Survey → α × Survey) (R : α → List Pending → Prop) : Prop :=
  ∀ survey, ∃ found, (part survey).2.found = survey.found ++ found ∧ R (part survey).1 found

namespace Gives

variable {α β : Type} {part : Survey → α × Survey} {R : α → List Pending → Prop}
  {S : β → List Pending → Prop}

theorem pure {a : α} (h : R a []) : Gives (fun survey => (a, survey)) R :=
  fun _ => ⟨[], (List.append_nil _).symm, h⟩

/-- One part after another, which may depend on the result of the first. -/
theorem bind {next : α → Survey → β × Survey} (h : Gives part R)
    (hnext : ∀ a, Gives (next a) fun b found' => ∀ found, R a found → S b (found ++ found')) :
    Gives (fun survey => next (part survey).1 (part survey).2) S := by
  intro survey
  obtain ⟨found, hfound, hresult⟩ := h survey
  obtain ⟨found', hfound', hlast⟩ := hnext (part survey).1 (part survey).2
  refine ⟨found ++ found', ?_, hlast found hresult⟩
  rw [hfound', hfound, List.append_assoc]

/-- The result of a part is used further. -/
theorem map (f : α → β) (h : Gives part R) (hf : ∀ a found, R a found → S (f a) found) :
    Gives (fun survey => (f (part survey).1, (part survey).2)) S := by
  intro survey
  obtain ⟨found, hfound, hresult⟩ := h survey
  exact ⟨found, hfound, hf _ _ hresult⟩

/-- A part that begins with nothing found accounts for all that is found then. -/
theorem accounts {settings : Settings} {T : String → Prop} {names : α → List PojoName}
    (h : Gives part fun a found => Accounts settings T (names a) found) (survey : Survey)
    (hnil : survey.found = []) :
    Accounts settings T (names (part survey).1) (part survey).2.found := by
  obtain ⟨found, hfound, haccounts⟩ := h survey
  rw [hfound, hnil, List.nil_append]
  exact haccounts

end Gives

section

variable {settings : Settings} {owner : PojoName} {T : String → Prop}

/-! ## Types -/

/-- The one reference that a composition comes to is among those of the schema. -/
theorem Keywords.mem_children_of_singleReference? {k : Keywords Schema} {target : String}
    (h : k.singleReference? = some target) : .ref target ∈ k.children := by
  rw [singleReference?] at h
  split at h
  · split at h
    · rename_i single hbranches
      obtain rfl : single = target := Option.some.inj h
      have hmem : Schema.ref single ∈ k.composedBranches := hbranches ▸ List.mem_singleton_self _
      have hbranch := List.mem_of_mem_filter hmem
      simp only [List.mem_append] at hbranch
      simp only [children, List.mem_append]
      tauto
    · cases h
  · cases h

/-- Mapping takes for references the schemas that come to a single one. -/
theorem Keywords.singleReference?_of_form {k : Keywords Schema} {target : String}
    (h : k.form = .reference target) : k.singleReference? = some target := by
  rw [form] at h
  split at h
  · rename_i other hother
    cases h
    exact hother
  · split at h
    · cases h
    · repeat' split at h
      all_goals cases h

/-- `T` holds of the references that stand in the schema. -/
def Schema.TargetsSatisfy (T : String → Prop) (schema : Schema) : Prop :=
  ∀ target, (Schema.ref target).StandsIn schema → T target

theorem Schema.TargetsSatisfy.child {k : Keywords Schema} (h : TargetsSatisfy T (.inline k))
    {child : Schema} (hchild : child ∈ k.children) : child.TargetsSatisfy T :=
  fun target htarget => h target (htarget.tail ⟨k, rfl, hchild⟩)

theorem Schema.TargetsSatisfy.target {target : String} (h : TargetsSatisfy T (.ref target)) :
    T target :=
  h target .refl

/-- **The type of a schema accounts for what is found in it.** -/
theorem accounts_mapSchema {member : String} {registry : Registry} {schema : Schema}
    (hT : schema.TargetsSatisfy T) :
    Accounts settings T (mapSchema settings owner member registry schema).type.references
      (mapSchema settings owner member registry schema).found := by
  induction schema using Schema.childInduction with
  | ref target =>
    rw [mapSchema_ref]
    exact .reference hT.target
  | inline k ih =>
    rw [mapSchema_inline]
    cases hform : k.form with
    | reference target =>
      have hsingle := Keywords.singleReference?_of_form hform
      exact .reference (hT.child (Keywords.mem_children_of_singleReference? hsingle)).target
    | object => exact .claimed ⟨_, .inline k⟩
    | list =>
      cases hitems : k.items with
      | none => exact .nil
      | some item =>
        have hitem := Keywords.mem_children_of_items hitems
        exact ih item hitem (hT.child hitem)
    | map =>
      cases hadditional : k.additional with
      | none => exact .nil
      | some additional =>
        cases additional with
        | flag _ => exact .nil
        | schema value =>
          have hvalue := Keywords.mem_children_of_additional hadditional
          exact ih value hvalue (hT.child hvalue)
    | _ => exact .nil

theorem gives_mapType (owner : PojoName) (member : String) {schema : Schema}
    (hT : schema.TargetsSatisfy T) :
    Gives (fun survey => survey.mapType settings owner member schema) fun type found =>
      Accounts settings T type.references found :=
  fun _ => ⟨_, rfl, accounts_mapSchema hT⟩

theorem gives_discover (name : PojoName) (schema : Schema) :
    Gives (fun survey => survey.discover name schema) fun name found =>
      Accounts settings T [name] found :=
  fun survey => ⟨_, rfl, .claimed ⟨(survey.registry.claim name).1, schema⟩⟩

/-! ## Members and branches -/

theorem gives_mapWithState {α β : Type} {f : Survey → α → β × Survey} {names : β → List PojoName}
    {as : List α} (h : ∀ a ∈ as, Gives (f · a) fun b found => Accounts settings T (names b) found) :
    Gives (fun survey => mapWithState f survey as) fun bs found =>
      Accounts settings T (bs.flatMap names) found := by
  induction as with
  | nil => exact .pure .nil
  | cons a rest ih =>
    have hrest := ih fun other hother => h other (List.mem_cons_of_mem _ hother)
    exact (h a List.mem_cons_self).bind fun b => hrest.map (b :: ·) fun bs found' hbs found hb =>
      hb.append hbs

variable {k : Keywords Schema} (hT : Schema.TargetsSatisfy T (.inline k))

include hT

theorem gives_membersOf : Gives (membersOf settings owner k) fun members found =>
    Accounts settings T (members.flatMap (·.type.references)) found := by
  refine gives_mapWithState fun property hproperty => ?_
  have hchild : property.2 ∈ k.children := by
    have hmem : property.2 ∈ k.properties.map (·.2) := List.mem_map_of_mem hproperty
    simp [Keywords.children, hmem]
  exact (gives_mapType _ _ (hT.child hchild)).map _ fun type found h => h

theorem gives_additionalOf : Gives (additionalOf settings owner k) fun additional found =>
    Accounts settings T additional.references found := by
  unfold additionalOf
  cases hadditional : k.additional with
  | none => exact .pure .nil
  | some additional =>
    cases additional with
    | flag allowed => cases allowed <;> exact .pure .nil
    | schema value =>
      cases hempty : value.isEmpty with
      | true =>
        have hfree : Gives (fun survey => (AdditionalProperties.allowed .freeForm, survey))
            fun additional found => Accounts settings T additional.references found := .pure .nil
        simpa [hempty] using hfree
      | false =>
        have hvalue := hT.child (Keywords.mem_children_of_additional hadditional)
        -- A type that is not known refers to nothing, no more than what takes its place.
        have hreferences : ∀ type, (AdditionalProperties.ofType type).references
            = type.references := by
          intro type
          rw [AdditionalProperties.ofType]
          cases type with
          | leaf leaf traits => cases leaf <;> rfl
          | _ => rfl
        have htype : Gives (fun survey => survey.mapType settings owner additionalMember value)
            fun type found => Accounts settings T type.references found := gives_mapType _ _ hvalue
        have hmapped := htype.map
          (S := fun additional found => Accounts settings T additional.references found)
          AdditionalProperties.ofType fun type found h => by rwa [hreferences type]
        simpa [hempty] using hmapped

omit hT in
theorem gives_branchesFrom {kind : CompositionKind} {isNumbered : Bool} {number : Nat}
    {branches : List Schema} (h : ∀ branch ∈ branches, branch.TargetsSatisfy T) :
    Gives (fun survey =>
        let (names, state) := mapWithState (branchOf settings owner kind isNumbered)
          (number, survey) branches
        (names, state.2))
      fun names found => Accounts settings T names found := by
  induction branches generalizing number with
  | nil => exact .pure .nil
  | cons branch rest ih =>
    have hrest := fun number =>
      @ih number fun other hother => h other (List.mem_cons_of_mem _ hother)
    cases branch with
    | ref target =>
      have htarget := (h _ List.mem_cons_self).target
      exact (hrest number).map (settings.referenceName target :: ·) fun names found hnames =>
        (Accounts.reference htarget).append hnames
    | inline inner =>
      have hfirst : Gives (fun survey => survey.discover (owner.append
          (if isNumbered then kind.tag ++ toString number else kind.tag)) (.inline inner))
          fun name found => Accounts settings T [name] found := gives_discover _ _
      exact hfirst.bind fun name => (hrest (number + 1)).map (name :: ·)
        fun names found' hnames found hname => hname.append hnames

theorem gives_branchesOf (kind : CompositionKind) {schemas : List Schema}
    (h : ∀ schema ∈ schemas, schema ∈ k.children) :
    Gives (branchesOf settings owner kind schemas) fun names? found =>
      Accounts settings T (names?.getD []) found := by
  unfold branchesOf
  cases hbranches : schemas.filter (!·.isNullType) with
  | nil => exact .pure .nil
  | cons branch rest =>
    have hall : ∀ schema ∈ branch :: rest, schema.TargetsSatisfy T := by
      intro schema hschema
      exact hT.child (h schema (List.mem_of_mem_filter (hbranches ▸ hschema)))
    exact (gives_branchesFrom hall).map some fun names found hnames => hnames

/-! ## Results -/

theorem gives_objectOf : Gives (objectOf settings owner k) fun object found =>
    Accounts settings T object.references found := by
  exact (gives_membersOf hT).bind fun members =>
    (gives_additionalOf hT).map (fun additional =>
      { name := owner
        description := k.description
        members
        requiredAdditional := k.requiredAdditional
        additional
        constraints := k.propertyConstraints : ObjectPojo })
      fun additional found' hadditional found hmembers => by
        rw [ObjectPojo.references_eq]
        simpa [ObjectPojo.branches, ObjectPojo.ownReferences] using hmembers.append hadditional

theorem gives_stubOf : Gives (stubOf settings owner k) fun stub found =>
    Accounts settings T (Classified.stub stub).referredNames found := by
  let discriminator := k.discriminator.map (sketchOf settings)
  have hall : ∀ schema ∈ k.allOf, schema ∈ k.children := fun _ h => by simp [Keywords.children, h]
  have hone : ∀ schema ∈ k.oneOf, schema ∈ k.children := fun _ h => by simp [Keywords.children, h]
  have hany : ∀ schema ∈ k.anyOf, schema ∈ k.children := fun _ h => by simp [Keywords.children, h]
  exact (gives_branchesOf hT .allOf hall).bind fun allOf =>
    (gives_branchesOf hT .oneOf hone).bind fun oneOf =>
    (gives_branchesOf hT .anyOf hany).bind fun anyOf =>
    (gives_membersOf hT).bind fun members =>
    (gives_additionalOf hT).map (fun additional =>
      { name := owner
        description := k.description
        members
        requiredAdditional := k.requiredAdditional
        additional
        constraints := k.propertyConstraints
        allOf
        oneOf := oneOf.map (⟨·, if k.oneOf.isEmpty then none else discriminator⟩)
        anyOf := anyOf.map (⟨·, if k.oneOf.isEmpty then discriminator else none⟩) : Stub })
      fun additional found₅ hadditional found₄ hmembers found₃ hanyOf found₂ honeOf found₁ hallOf =>
        by
      -- Branches are found before members and further properties, as they are listed.
      have hbranches := hallOf.append (honeOf.append hanyOf)
      have hnames := hbranches.append (hmembers.append hadditional)
      have hunion : ∀ (names? : Option (List PojoName)) (sketch : Option DiscriminatorSketch),
          ((names?.map (⟨·, sketch⟩ : List PojoName → UnionSketch)).map (·.branches)) = names? := by
        intro names? sketch
        cases names? <;> rfl
      simpa [Classified.referredNames, Stub.branchNames, Stub.branches, Stub.branchesOf, hunion,
        Function.comp_def, List.append_assoc] using hnames

omit hT in
theorem gives_plainOf {schema : Schema} (hT : schema.TargetsSatisfy T)
    (description : Option String) (isNullable : Bool) :
    Gives (plainOf settings owner schema description isNullable) fun plain found =>
      Accounts settings T plain.type.references found := by
  have hplain := (gives_mapType owner valueMember hT).map
    (S := fun plain found => Accounts settings T (PlainMember.type plain).references found)
    (fun type => { name := owner, description, type, nullability := .ofBool isNullable })
    fun type found h => h
  exact hplain

end

/-! ## Classification -/

/-- **What a schema is classified as accounts for all that is found in it.** -/
theorem accounts_classify {settings : Settings} {T : String → Prop} {pending : Pending}
    {registry : Registry} {classified : Classified} {survey : Survey}
    (h : classify settings pending registry = .ok (classified, survey))
    (hT : pending.schema.TargetsSatisfy T) :
    Accounts settings T classified.referredNames survey.found := by
  obtain ⟨name, schema⟩ := pending
  cases schema with
  | ref target =>
    cases h
    exact (gives_plainOf hT none false).accounts { registry } rfl
  | inline k =>
    cases classifies_classify h with
    | array hshape =>
      have hvalue : Gives (fun survey => survey.mapType settings name valueMember (.inline k))
          fun type found => Accounts settings T type.references found := gives_mapType _ _ hT
      exact hvalue.accounts { registry } rfl
    | nullReference hshape hreference =>
      exact (gives_plainOf hT k.description true).accounts { registry } rfl
    | composed hshape hreference hcomposition => exact (gives_stubOf hT).accounts { registry } rfl
    | object hshape hreference hcomposition hobject =>
      exact (gives_objectOf hT).accounts { registry } rfl
    | enum hsimple hvalues henum =>
      obtain ⟨⟨values, rfl⟩, -, hfound⟩ := eq_enum_of_enumOf henum
      rw [hfound]
      exact .nil
    | freeForm hsimple hvalues hfree =>
      have hfound : (if k.enumValues.isEmpty then ({ registry } : Survey)
          else ({ registry } : Survey).warn (.nonStringEnum name)).found = [] := by
        split <;> rfl
      rw [hfound]
      exact .nil
    | plain hsimple hvalues hfree hsurvey =>
      refine (gives_plainOf hT k.description k.isNullable).accounts _ ?_
      rw [hsurvey]
      split <;> rfl

theorem Schema.references_subset_of_standsIn {inner outer : Schema} (h : inner.StandsIn outer) :
    inner.references ⊆ outer.references := by
  induction h with
  | refl => exact List.Subset.refl _
  | tail _ hchild ih =>
    obtain ⟨k, rfl, hchild⟩ := hchild
    intro reference hreference
    rw [references_inline]
    exact List.mem_append_left _ (List.mem_flatMap.mpr ⟨_, hchild, ih hreference⟩)

/-- **All that is discovered is accounted for.** If a schema is classified, the names that the
outcome refers to are, up to their order, names of references that stand in the schema and the
names of the schemas found in it. The latter were free before and have keys of their own. Each is
referred to exactly once, unless a reference in the schema has its key. The keys taken afterwards
are those taken before and those of the found schemas. -/
theorem discovery_accounted {settings : Settings} {pending : Pending} {registry : Registry}
    {classified : Classified} {survey : Survey}
    (h : classify settings pending registry = .ok (classified, survey)) :
    Accounts settings (fun target => (Schema.ref target).StandsIn pending.schema)
        classified.referredNames survey.found
      ∧ (∀ found ∈ survey.found, registry.isFree found.name = true)
      ∧ (survey.found.map (·.name.key)).Nodup
      ∧ (∀ found ∈ survey.found,
          (∀ target, (Schema.ref target).StandsIn pending.schema →
            (settings.referenceName target).key ≠ found.name.key) →
          (classified.referredNames.map (·.key)).count found.name.key = 1)
      ∧ ∀ key, key ∈ survey.registry.keys
          ↔ key ∈ registry.keys ∨ ∃ found ∈ survey.found, found.name.key = key := by
  have haccounts := accounts_classify h fun target htarget => htarget
  have hclaims := claims_classify h
  refine ⟨haccounts, ?_, hclaims.nodup, ?_, ?_⟩
  · intro found hfound
    exact Registry.isFree_iff.mpr (hclaims.fresh found hfound)
  · intro found hfound hreferences
    obtain ⟨targets, htargets, hperm⟩ := haccounts
    have hnone : ((targets.map settings.referenceName).map (·.key)).count found.name.key = 0 := by
      rw [List.count_eq_zero, List.map_map, List.mem_map]
      rintro ⟨target, htarget, hkey⟩
      exact hreferences target (htargets target htarget) hkey
    have hone : ((survey.found.map (·.name)).map (·.key)).count found.name.key = 1 := by
      rw [List.map_map]
      exact List.count_eq_one_of_mem hclaims.nodup (List.mem_map_of_mem hfound)
    rw [(hperm.map (·.key)).count_eq, List.map_append, List.count_append, hnone, hone]
  · intro key
    rw [hclaims.keys, List.mem_append, List.mem_reverse, List.mem_map, or_comm]

/-- A pet with a friend, who is described elsewhere, and owners, who are described in place. -/
def ownedPet : Schema :=
  .inline {
    properties := [
      ("friend", .ref "#/components/schemas/Person"),
      ("owners", .inline {
        types := some (.single .array)
        items := some (.inline
          { properties := [("id", .inline { types := some (.single .string) })] }) })] }

/-- The owners of a pet are found under the second name, as the first is taken, and the pet refers
to them once. -/
theorem discovery_accounted_ownedPet :
    ∃ classified survey,
      classify {} ⟨⟨"Pet", ""⟩, ownedPet⟩ ⟨["petowners"]⟩ = .ok (classified, survey)
        ∧ survey.found.map (·.name) = [⟨"PetOwners2", ""⟩]
        ∧ (classified.referredNames.map (·.key)).count (PojoName.key ⟨"PetOwners2", ""⟩) = 1 := by
  obtain ⟨⟨classified, survey⟩, hok, hfound⟩ := exists_ok_of_any_toOption
    (show ((classify {} ⟨⟨"Pet", ""⟩, ownedPet⟩ ⟨["petowners"]⟩).toOption.any fun result =>
        result.2.found.map (·.name) = [⟨"PetOwners2", ""⟩]) = true by decide +kernel)
  have hnames : survey.found.map (·.name) = [⟨"PetOwners2", ""⟩] := of_decide_eq_true hfound
  refine ⟨classified, survey, hok, hnames, ?_⟩
  obtain ⟨found, hmem, hname⟩ := List.mem_map.mp (hnames ▸ List.mem_singleton_self _)
  rw [← hname]
  refine (discovery_accounted hok).2.2.2.1 found hmem fun target htarget => ?_
  have hreference : target ∈ ownedPet.references :=
    Schema.references_subset_of_standsIn htarget (by simp)
  have honly : ownedPet.references = ["#/components/schemas/Person"] := by decide +kernel
  rw [honly, List.mem_singleton] at hreference
  rw [hreference, hname]
  decide +kernel

end PojoGraph
