import PojoGraph.Proofs.Classification.ReferredNames
import PojoGraph.Proofs.PojoSet.Scope

/-!
# Names that a classification mentions

What a schema is classified as mentions three kinds of names: that of the schema, those that its
references lead to, and those of the schemas found in it. So it is within each scope that has
these. For the names that it refers to, this is read off the account of what is found; what is
left are the targets of discriminators.

## Main definitions

* `Stub.Within`, `PlainMember.Within`, `Classified.Within` — all names are in scope.
* `Schema.RefersWithin` — the names that references lead to are in scope.

## Main statements

* `within_classify` — a classification is within each scope that has the names which it may
  mention.
-/

namespace PojoGraph

/-! ## What is within a scope -/

/-- All names in the plain type are in scope. -/
structure PlainMember.Within (P : PojoName → Prop) (plain : PlainMember) : Prop where
  name : P plain.name
  type : plain.type.Within P

/-- All names in the stub are in scope. -/
structure Stub.Within (P : PojoName → Prop) (stub : Stub) : Prop where
  name : P stub.name
  members : ∀ member ∈ stub.members, member.type.Within P
  additional : stub.additional.Within P
  branches : ∀ kind names, stub.branchesOf kind = some names → ∀ name ∈ names, P name
  targets : ∀ kind sketch, stub.discriminatorOf kind = some sketch →
    ∀ entry ∈ sketch.mapping.getD [], P entry.2

/-- All names in what a schema turns out to be are in scope. -/
inductive Classified.Within (P : PojoName → Prop) : Classified → Prop where
  | pojo {pojo : Pojo} (h : pojo.Within P) : Within P (.pojo pojo)
  | stub {stub : Stub} (h : stub.Within P) : Within P (.stub stub)
  | plain {plain : PlainMember} (h : plain.Within P) : Within P (.plain plain)

variable {P : PojoName → Prop}

section

variable {settings : Settings} {owner : PojoName}

/-- The names that the references lead to are in scope. -/
def Schema.RefersWithin (settings : Settings) (P : PojoName → Prop) (schema : Schema) : Prop :=
  ∀ reference ∈ schema.references, P (settings.referenceName reference)

/-- What is found in a schema refers to nothing that the schema does not refer to. -/
theorem Schema.RefersWithin.discovered {schema inner : Schema}
    (h : schema.RefersWithin settings P) (hinner : inner ∈ schema.discovered) :
    inner.RefersWithin settings P := by
  cases hself : schema.findsItself with
  | true =>
    rw [discovered_of_findsItself hself, List.mem_singleton] at hinner
    rwa [hinner]
  | false =>
    have hinside : inner.Inside schema := inside_of_mem_discovered hself hinner
    exact fun reference hreference =>
      h reference (references_subset_of_standsIn hinside.to_reflTransGen hreference)

theorem Schema.RefersWithin.targetsSatisfy {schema : Schema}
    (h : schema.RefersWithin settings P) :
    schema.TargetsSatisfy fun target => P (settings.referenceName target) := by
  intro target htarget
  refine h target (references_subset_of_standsIn htarget ?_)
  rw [references_ref]
  exact List.mem_singleton_self _

/-- Names accounted for by names in scope are in scope. -/
theorem Accounts.forall_mem {names : List PojoName} {found : List Pending}
    (h : Accounts settings (fun target => P (settings.referenceName target)) names found)
    (hfound : ∀ pending ∈ found, P pending.name) : ∀ name ∈ names, P name := by
  obtain ⟨targets, htargets, hperm⟩ := h
  intro name hname
  rcases List.mem_append.mp (hperm.mem_iff.mp hname) with hreference | hclaimed
  · obtain ⟨target, htarget, rfl⟩ := List.mem_map.mp hreference
    exact htargets target htarget
  · obtain ⟨pending, hpending, rfl⟩ := List.mem_map.mp hclaimed
    exact hfound pending hpending

/-! ## Objects and compositions -/

/-- An object without branches is within a scope that has its name and the names that it refers
to. -/
theorem ObjectPojo.within_of_references {object : ObjectPojo} (hbranches : object.branches = [])
    (hdiscriminators : object.discriminators = []) (hname : P object.name)
    (hreferences : ∀ name ∈ object.references, P name) : object.Within P := by
  rw [references_eq, hbranches, List.flatMap_nil, List.append_nil, ownReferences] at hreferences
  refine .intro hname (fun member hmember name h => ?_) (fun name h => ?_) ?_ ?_
  · exact hreferences name (List.mem_append_left _ (List.mem_flatMap.mpr ⟨member, hmember, h⟩))
  · exact hreferences name (List.mem_append_right _ h)
  · rw [hdiscriminators]
    exact fun _ h => (List.not_mem_nil h).elim
  · rw [hbranches]
    exact fun _ h => (List.not_mem_nil h).elim

variable {k : Keywords Schema}

/-- A discriminator of a composed type is that of the schema. -/
theorem exists_of_discriminatorOf_stubOf {survey : Survey} {kind : CompositionKind}
    {sketch : DiscriminatorSketch}
    (h : (stubOf settings owner k survey).1.discriminatorOf kind = some sketch) :
    ∃ discriminator, k.discriminator = some discriminator
      ∧ sketch = sketchOf settings discriminator := by
  have hsketch : k.discriminator.map (sketchOf settings) = some sketch := by
    cases kind with
    | allOf => cases h
    | oneOf =>
      obtain ⟨union, hunion, hsome⟩ := Option.bind_eq_some_iff.mp h
      obtain ⟨branches, -, rfl⟩ := Option.map_eq_some_iff.mp hunion
      dsimp only at hsome
      split at hsome
      · cases hsome
      · exact hsome
    | anyOf =>
      obtain ⟨union, hunion, hsome⟩ := Option.bind_eq_some_iff.mp h
      obtain ⟨branches, -, rfl⟩ := Option.map_eq_some_iff.mp hunion
      dsimp only at hsome
      split at hsome
      · exact hsome
      · cases hsome
  obtain ⟨discriminator, hdiscriminator, rfl⟩ := Option.map_eq_some_iff.mp hsketch
  exact ⟨discriminator, hdiscriminator, rfl⟩

theorem within_sketchOf (hrefers : Schema.RefersWithin settings P (.inline k))
    {discriminator : DiscriminatorKeyword}
    (h : k.discriminator = some discriminator) :
    ∀ entry ∈ (sketchOf settings discriminator).mapping.getD [], P entry.2 := by
  intro entry hentry
  rw [sketchOf] at hentry
  dsimp only at hentry
  split at hentry
  · cases hentry
  · obtain ⟨original, horiginal, rfl⟩ := List.mem_map.mp hentry
    refine hrefers original.2 ?_
    rw [Schema.references_inline, Keywords.mappingTargets, h]
    exact List.mem_append_right _ (List.mem_map_of_mem horiginal)

/-- A composed type is within a scope that has its name, the names that it refers to and those
that the references of its schema lead to. -/
theorem within_stubOf {survey : Survey} (hrefers : Schema.RefersWithin settings P (.inline k))
    (howner : P owner) (hnames : ∀ name ∈
      (Classified.stub (stubOf settings owner k survey).1).referredNames, P name) :
    (stubOf settings owner k survey).1.Within P where
  name := howner
  members := fun member hmember name hname => hnames name <| List.mem_append_right _ <|
    List.mem_append_left _ (List.mem_flatMap.mpr ⟨member, hmember, hname⟩)
  additional := fun name hname =>
    hnames name (List.mem_append_right _ (List.mem_append_right _ hname))
  branches := fun kind names hkind name hname =>
    hnames name (List.mem_append_left _ (ClassTable.mem_branchNames_of_branchesOf hkind hname))
  targets := by
    intro kind sketch hkind
    obtain ⟨discriminator, hdiscriminator, rfl⟩ := exists_of_discriminatorOf_stubOf hkind
    exact within_sketchOf hrefers hdiscriminator

end

/-! ## Classification -/

/-- **A classification is within each scope that has the names which it may mention**: that of the
schema, those that its references lead to, and those of what is found in it. -/
theorem within_classify {settings : Settings} {pending : Pending} {registry : Registry}
    {classified : Classified} {survey : Survey}
    (h : classify settings pending registry = .ok (classified, survey)) (hname : P pending.name)
    (hrefers : pending.schema.RefersWithin settings P)
    (hfound : ∀ found ∈ survey.found, P found.name) : classified.Within P := by
  have hnames : ∀ name ∈ classified.referredNames, P name :=
    (accounts_classify h hrefers.targetsSatisfy).forall_mem hfound
  obtain ⟨name, schema⟩ := pending
  cases schema with
  | ref target =>
    cases h
    exact .plain ⟨hname, hnames⟩
  | inline k =>
    cases classifies_classify h with
    | array _ => exact .pojo (.array hname hnames)
    | nullReference _ _ => exact .plain ⟨hname, hnames⟩
    | composed _ _ _ => exact .stub (within_stubOf hrefers hname hnames)
    | object _ _ _ _ =>
      exact .pojo (.object (ObjectPojo.within_of_references rfl rfl hname hnames))
    | enum _ _ henum =>
      obtain ⟨⟨values, rfl⟩, -⟩ := eq_enum_of_enumOf henum
      exact .pojo (.enum hname)
    | freeForm _ _ _ => exact .pojo (.freeForm hname)
    | plain _ _ _ _ => exact .plain ⟨hname, hnames⟩

end PojoGraph
