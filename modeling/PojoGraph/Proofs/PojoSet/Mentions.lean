import PojoGraph.Proofs.PojoSet.Copies

/-!
# Names that types mention

A generated type mentions other types in the types of its members and in its discriminators, in
branches to any depth as at the top. Renaming renames each mention. What a discriminator mentions
is a branch, and so it is spelled as the type that the branch is a copy of; a member may spell
the name as the document does.

## Main definitions

* `Pojo.discriminators`, `Pojo.Dispatches` — the discriminators of a type, and the names in them
  at any depth.
* `Pojo.Mentions` — the names that a type mentions.
* `Pojo.SelectsBranches` — the discriminators of a type select branches that it has.

## Main statements

* `Pojo.references_revise` — what a revised type refers to.
* `Pojo.mentions_rename_iff` — a renamed type mentions the renamed names.
* `Stub.selectsBranches_toPojo` — a resolved stub dispatches to its own branches.
* `Course.exists_mem_pojos_of_dispatches` — discriminators mention types by their own names.
-/

namespace PojoGraph

/-! ## Branches -/

namespace ObjectPojo

theorem sizeOf_lt_of_mem_branches {branch object : ObjectPojo} (h : branch ∈ object.branches) :
    sizeOf branch < sizeOf object := by
  obtain ⟨name, description, members, requiredAdditional, additional, constraints,
    allOf, oneOf, anyOf⟩ := object
  simp only [branches, List.mem_append] at h
  rcases h with (h | h) | h
  · cases allOf with
    | none => cases h
    | some branches =>
      have hlt : sizeOf branch < sizeOf branches := List.sizeOf_lt_of_mem h
      simp only [mk.sizeOf_spec, Option.some.sizeOf_spec]
      omega
  · rcases oneOf with _ | ⟨branches, discriminator⟩
    · cases h
    · have hlt : sizeOf branch < sizeOf branches := List.sizeOf_lt_of_mem h
      simp only [mk.sizeOf_spec, Option.some.sizeOf_spec, Alternatives.mk.sizeOf_spec]
      omega
  · rcases anyOf with _ | ⟨branches, discriminator⟩
    · cases h
    · have hlt : sizeOf branch < sizeOf branches := List.sizeOf_lt_of_mem h
      simp only [mk.sizeOf_spec, Option.some.sizeOf_spec, Alternatives.mk.sizeOf_spec]
      omega

/-- Induction over an object and the objects embedded in it. -/
@[elab_as_elim]
theorem branchInduction {motive : ObjectPojo → Prop}
    (step : ∀ object : ObjectPojo, (∀ branch ∈ object.branches, motive branch) → motive object)
    (object : ObjectPojo) : motive object := by
  induction hn : sizeOf object using Nat.strongRecOn generalizing object with
  | _ n ih =>
    refine step object fun branch hbranch => ?_
    exact ih (sizeOf branch) (hn ▸ sizeOf_lt_of_mem_branches hbranch) branch rfl

end ObjectPojo

/-! ## Renaming by no name -/

@[simp] theorem AdditionalProperties.map_rename_id (additional : AdditionalProperties) :
    additional.map (DataType.rename id) = additional := by
  cases additional <;> simp [map]

@[simp] theorem Member.rename_id (member : Member) : member.rename id = member := by
  simp [rename]

theorem Alternatives.revise_rename_id {union : Alternatives ObjectPojo Discriminator}
    (h : union.branches.map (ObjectPojo.revise (.rename id)) = union.branches) :
    union.revise (.rename id) = union := by
  obtain ⟨branches, discriminator⟩ := union
  have hdiscriminator : discriminator.map (·.rename id) = discriminator := by
    cases discriminator <;> simp
  rw [revise, h]
  exact congrArg (Alternatives.mk branches) hdiscriminator

theorem ObjectPojo.revise_rename_id (object : ObjectPojo) :
    object.revise (.rename id) = object := by
  induction object using branchInduction with
  | step object ih =>
    have hmap : ∀ objects : List ObjectPojo, (∀ branch ∈ objects, branch ∈ object.branches) →
        objects.map (revise (.rename id)) = objects := by
      intro objects hobjects
      rw [List.map_congr_left fun branch hbranch => ih branch (hobjects branch hbranch)]
      exact List.map_id' objects
    have hall : object.allOf.map (·.map (revise (.rename id))) = object.allOf := by
      cases h : object.allOf with
      | none => rfl
      | some objects =>
        exact congrArg some (hmap objects fun _ hbranch => by simp [branches, h, hbranch])
    have hone : object.oneOf.map (·.revise (.rename id)) = object.oneOf := by
      cases h : object.oneOf with
      | none => rfl
      | some union =>
        exact congrArg some (Alternatives.revise_rename_id
          (hmap _ fun _ hbranch => by simp [branches, h, hbranch]))
    have hany : object.anyOf.map (·.revise (.rename id)) = object.anyOf := by
      cases h : object.anyOf with
      | none => rfl
      | some union =>
        exact congrArg some (Alternatives.revise_rename_id
          (hmap _ fun _ hbranch => by simp [branches, h, hbranch]))
    have hmembers : object.members.map (Member.rename id) = object.members := by
      rw [List.map_congr_left fun member _ => member.rename_id, List.map_id']
    rw [revise_eq, hall, hone, hany]
    simp only [Revision.rename, hmembers, AdditionalProperties.map_rename_id, id]
    cases object
    rfl

@[simp] theorem Pojo.rename_id (pojo : Pojo) : pojo.rename id = pojo := by
  cases pojo with
  | object object => exact congrArg Pojo.object object.revise_rename_id
  | composed name description kind union =>
    refine congrArg (Pojo.composed name description kind) (Alternatives.revise_rename_id ?_)
    rw [List.map_congr_left fun branch _ => branch.revise_rename_id, List.map_id']
  | _ => simp [rename, revise, Revision.rename]

/-! ## References -/

/-- The revision puts the names that `σ` has for it in place of each reference. -/
structure Revision.MapsReferences (σ : PojoName → List PojoName) (r : Revision) : Prop where
  member : ∀ member, (r.member member).type.references = member.type.references.flatMap σ
  type : ∀ type, (r.type type).references = type.references.flatMap σ

section

variable {σ : PojoName → List PojoName} {r : Revision} (h : r.MapsReferences σ)

include h

theorem AdditionalProperties.references_map (additional : AdditionalProperties) :
    (additional.map r.type).references = additional.references.flatMap σ := by
  cases additional with
  | notAllowed => rfl
  | allowed type => exact h.type type

theorem ObjectPojo.ownReferences_revise (object : ObjectPojo) :
    (object.revise r).ownReferences = object.ownReferences.flatMap σ := by
  have hadditional : (object.revise r).additional = object.additional.map r.type := by
    rw [revise_eq]
  rw [ownReferences, ownReferences, members_revise, hadditional,
    AdditionalProperties.references_map h, List.flatMap_append, List.flatMap_assoc,
    List.flatMap_map]
  exact congrArg (· ++ _) (List.flatMap_congr fun member _ => h.member member)

theorem ObjectPojo.references_revise (object : ObjectPojo) :
    (object.revise r).references = object.references.flatMap σ := by
  induction object using branchInduction with
  | step object ih =>
    rw [references_eq, references_eq object, ownReferences_revise h, branches_revise,
      List.flatMap_append, List.flatMap_assoc, List.flatMap_map]
    exact congrArg _ (List.flatMap_congr ih)

/-- **A revised type refers to what its revision puts in place of the references**, in their
order. -/
theorem Pojo.references_revise (pojo : Pojo) :
    (pojo.revise r).references = pojo.references.flatMap σ := by
  cases pojo with
  | object object => exact object.references_revise h
  | composed name description kind union =>
    rw [revise, references, references, Alternatives.revise, List.flatMap_map, List.flatMap_assoc]
    exact List.flatMap_congr fun branch _ => branch.references_revise h
  | array name description value => exact h.member value
  | typeAlias name description type nullability => exact h.type type
  | enum name description values => rfl
  | freeForm name description constraints => rfl

end

theorem Revision.mapsReferences_rename (f : PojoName → PojoName) :
    (rename f).MapsReferences fun name => [f name] where
  member member := by
    rw [← List.map_eq_flatMap]
    exact member.type.references_rename f
  type type := by
    rw [← List.map_eq_flatMap]
    exact type.references_rename f

/-- **A renamed type refers to the renamed names**, in their order. -/
theorem Pojo.references_rename (f : PojoName → PojoName) (pojo : Pojo) :
    (pojo.rename f).references = pojo.references.map f := by
  rw [rename, references_revise (Revision.mapsReferences_rename f), List.map_eq_flatMap]

/-! ## Discriminators -/

/-- The branches that the values of a discriminator select. -/
def Discriminator.targets (discriminator : Discriminator) : List PojoName :=
  discriminator.entries.map (·.branch)

@[simp] theorem Discriminator.targets_rename (f : PojoName → PojoName)
    (discriminator : Discriminator) :
    (discriminator.rename f).targets = discriminator.targets.map f := by
  simp [targets, rename]

/-- The discriminators of the unions that an object has. -/
def ObjectPojo.discriminators (object : ObjectPojo) : List Discriminator :=
  (object.oneOf.bind (·.discriminator)).toList ++ (object.anyOf.bind (·.discriminator)).toList

theorem ObjectPojo.discriminators_revise (r : Revision) (object : ObjectPojo) :
    (object.revise r).discriminators = object.discriminators.map (·.rename r.name) := by
  rw [revise_eq]
  rcases hone : object.oneOf with _ | ⟨_, _ | _⟩ <;>
    rcases hany : object.anyOf with _ | ⟨_, _ | _⟩ <;>
    simp [discriminators, Alternatives.revise, hone, hany]

namespace Pojo

/-- The discriminators of the unions that a type has. -/
def discriminators : Pojo → List Discriminator
  | object o => o.discriminators
  | composed _ _ _ union => union.discriminator.toList
  | array .. => []
  | enum .. => []
  | freeForm .. => []
  | typeAlias .. => []

theorem discriminators_revise (r : Revision) (pojo : Pojo) :
    (pojo.revise r).discriminators = pojo.discriminators.map (·.rename r.name) := by
  cases pojo with
  | object o => exact o.discriminators_revise r
  | composed name description kind union =>
    rcases union with ⟨branches, _ | discriminator⟩ <;> rfl
  | _ => rfl

/-- The branch that a pojo makes has the discriminators of the pojo. -/
theorem discriminators_of_asBranch {pojo : Pojo} {object : ObjectPojo}
    (h : pojo.asBranch = .ok object) : object.discriminators = pojo.discriminators := by
  cases pojo with
  | object o => cases h; rfl
  | composed name description kind union =>
    rcases union with ⟨branches, _ | discriminator⟩ <;> cases kind <;> cases h <;> rfl
  | freeForm name description constraints => cases h; rfl
  | array name description value => cases h
  | enum name description values => cases h
  | typeAlias name description type nullability => cases h

/-- A discriminator of the type, or of a branch of it at any depth, has an entry for the name. -/
def Dispatches (pojo : Pojo) (name : PojoName) : Prop :=
  (∃ discriminator ∈ pojo.discriminators, name ∈ discriminator.targets)
    ∨ ∃ branch, pojo.Embeds branch
      ∧ ∃ discriminator ∈ branch.discriminators, name ∈ discriminator.targets

/-- The type refers to the name, or dispatches to it. -/
def Mentions (pojo : Pojo) (name : PojoName) : Prop :=
  name ∈ pojo.references ∨ pojo.Dispatches name

/-- A revised type embeds the revised branches. -/
theorem embeds_revise_iff {r : Revision} {pojo : Pojo} {branch : ObjectPojo} :
    (pojo.revise r).Embeds branch
      ↔ ∃ original, pojo.Embeds original ∧ branch = original.revise r := by
  constructor
  · intro h
    induction h with
    | direct hbranches hbranch =>
      rw [compositions_revise] at hbranches
      obtain ⟨originals, horiginals, rfl⟩ := List.mem_map.mp hbranches
      obtain ⟨original, horiginal, rfl⟩ := List.mem_map.mp hbranch
      exact ⟨original, .direct horiginals horiginal, rfl⟩
    | nested _ hbranches hbranch ih =>
      obtain ⟨outer, houter, rfl⟩ := ih
      rw [ObjectPojo.compositions_revise] at hbranches
      obtain ⟨originals, horiginals, rfl⟩ := List.mem_map.mp hbranches
      obtain ⟨original, horiginal, rfl⟩ := List.mem_map.mp hbranch
      exact ⟨original, .nested houter horiginals horiginal, rfl⟩
  · rintro ⟨original, h, rfl⟩
    induction h with
    | direct hbranches hbranch =>
      refine .direct ?_ (List.mem_map_of_mem hbranch)
      rw [compositions_revise]
      exact List.mem_map_of_mem hbranches
    | nested _ hbranches hbranch ih =>
      refine .nested ih ?_ (List.mem_map_of_mem hbranch)
      rw [ObjectPojo.compositions_revise]
      exact List.mem_map_of_mem hbranches

theorem dispatches_rename_iff {f : PojoName → PojoName} {pojo : Pojo} {name : PojoName} :
    (pojo.rename f).Dispatches name ↔ ∃ original, pojo.Dispatches original ∧ f original = name := by
  have htargets : ∀ discriminators : List Discriminator,
      (∃ discriminator ∈ discriminators.map (·.rename f), name ∈ discriminator.targets)
        ↔ ∃ discriminator ∈ discriminators, ∃ original ∈ discriminator.targets,
          f original = name := by
    simp
  have hown := htargets pojo.discriminators
  rw [Dispatches, rename, discriminators_revise]
  simp only [embeds_revise_iff]
  constructor
  · rintro (h | ⟨_, ⟨branch, hbranch, rfl⟩, h⟩)
    · obtain ⟨discriminator, hmem, original, horiginal, hname⟩ := hown.mp h
      exact ⟨original, .inl ⟨discriminator, hmem, horiginal⟩, hname⟩
    · rw [ObjectPojo.discriminators_revise] at h
      obtain ⟨discriminator, hmem, original, horiginal, hname⟩ := (htargets _).mp h
      exact ⟨original, .inr ⟨branch, hbranch, discriminator, hmem, horiginal⟩, hname⟩
  · rintro ⟨original, ⟨discriminator, hmem, horiginal⟩ | ⟨branch, hbranch, h⟩, hname⟩
    · exact .inl (hown.mpr ⟨discriminator, hmem, original, horiginal, hname⟩)
    · obtain ⟨discriminator, hmem, horiginal⟩ := h
      refine .inr ⟨_, ⟨branch, hbranch, rfl⟩, ?_⟩
      rw [ObjectPojo.discriminators_revise]
      exact (htargets _).mpr ⟨discriminator, hmem, original, horiginal, hname⟩

/-- **A renamed type mentions the renamed names.** -/
theorem mentions_rename_iff {f : PojoName → PojoName} {pojo : Pojo} {name : PojoName} :
    (pojo.rename f).Mentions name ↔ ∃ original, pojo.Mentions original ∧ f original = name := by
  rw [Mentions, references_rename, dispatches_rename_iff, List.mem_map]
  simp only [Mentions]
  grind

end Pojo

/-! ## Targets -/

namespace Pojo

theorem name_of_asBranch {pojo : Pojo} {object : ObjectPojo} (h : pojo.asBranch = .ok object) :
    object.name = pojo.name := by
  cases pojo with
  | object o => cases h; rfl
  | composed name description kind union => cases kind <;> cases h <;> rfl
  | freeForm name description constraints => cases h; rfl
  | array name description value => cases h
  | enum name description values => cases h
  | typeAlias name description type nullability => cases h

/-- The discriminators of the type select branches that it has. -/
def SelectsBranches (pojo : Pojo) : Prop :=
  ∀ discriminator ∈ pojo.discriminators, ∀ name ∈ discriminator.targets,
    ∃ branches ∈ pojo.compositions, ∃ branch ∈ branches, branch.name = name

theorem SelectsBranches.revise {pojo : Pojo} (h : pojo.SelectsBranches) (r : Revision) :
    (pojo.revise r).SelectsBranches := by
  intro discriminator hdiscriminator name hname
  rw [discriminators_revise] at hdiscriminator
  obtain ⟨original, horiginal, rfl⟩ := List.mem_map.mp hdiscriminator
  rw [Discriminator.targets_rename] at hname
  obtain ⟨target, htarget, rfl⟩ := List.mem_map.mp hname
  obtain ⟨branches, hbranches, branch, hbranch, rfl⟩ := h original horiginal target htarget
  refine ⟨_, ?_, branch.revise r, List.mem_map_of_mem hbranch, branch.name_revise r⟩
  rw [compositions_revise]
  exact List.mem_map_of_mem hbranches

end Pojo

theorem Discriminator.mem_of_mem_targets_resolve {sketch : DiscriminatorSketch}
    {branches : List PojoName} {name : PojoName} (h : name ∈ (sketch.resolve branches).targets) :
    name ∈ branches := by
  rw [targets, DiscriminatorSketch.resolve] at h
  cases hmapping : sketch.mapping <;> simp [hmapping] at h <;> grind

/-- The discriminator of a resolved union selects branches of the union. -/
theorem Stub.exists_branch_of_union {sketch : Option UnionSketch}
    {objects : Option (List ObjectPojo)} {union : Alternatives ObjectPojo Discriminator}
    (h : Stub.union sketch objects = some union) {discriminator : Discriminator}
    (hdiscriminator : union.discriminator = some discriminator) :
    ∀ name ∈ discriminator.targets, ∃ branch ∈ union.branches, branch.name = name := by
  unfold Stub.union at h
  split at h
  · cases h
    obtain ⟨sketch, -, rfl⟩ := Option.map_eq_some_iff.mp hdiscriminator
    intro name hname
    exact List.mem_map.mp (Discriminator.mem_of_mem_targets_resolve hname)
  · cases h

/-- **A resolved stub dispatches to its own branches.** -/
theorem Stub.selectsBranches_toPojo (stub : Stub) (branches : Branches) :
    (stub.toPojo branches).SelectsBranches := by
  intro discriminator hdiscriminator name hname
  rw [toPojo] at hdiscriminator ⊢
  split at hdiscriminator
  · rename_i hone _
    exact ⟨_, List.mem_singleton_self _,
      exists_branch_of_union hone (Option.mem_toList.mp hdiscriminator) name hname⟩
  · rename_i _ hany
    exact ⟨_, List.mem_singleton_self _,
      exists_branch_of_union hany (Option.mem_toList.mp hdiscriminator) name hname⟩
  · have hmem : discriminator ∈ (stub.toObject branches).discriminators := hdiscriminator
    simp only [ObjectPojo.discriminators, List.mem_append, Option.mem_toList,
      Option.bind_eq_some_iff] at hmem
    rcases hmem with ⟨union, hunion, hmem⟩ | ⟨union, hunion, hmem⟩
    · refine ⟨union.branches, ?_, exists_branch_of_union hunion hmem name hname⟩
      simp [Pojo.compositions, ObjectPojo.compositions, hunion]
    · refine ⟨union.branches, ?_, exists_branch_of_union hunion hmem name hname⟩
      simp [Pojo.compositions, ObjectPojo.compositions, hunion]

/-- A type without compositions has no discriminators. -/
theorem Pojo.discriminators_of_compositions {pojo : Pojo} (h : pojo.compositions = []) :
    pojo.discriminators = [] := by
  cases pojo with
  | object o =>
    simp only [compositions, ObjectPojo.compositions, List.append_eq_nil_iff,
      Option.toList_eq_nil_iff, Option.map_eq_none_iff] at h
    simp [discriminators, ObjectPojo.discriminators, h]
  | composed name description kind union => cases h
  | _ => rfl

namespace Course

variable {settings : Settings} {isLoaded : String → Bool} {documents : List Document}
  (course : Course settings isLoaded documents)

theorem selectsBranches : ∀ pojo ∈ course.pojos, pojo.SelectsBranches := by
  refine PojoSet.described_induction (P := fun pojos => ∀ pojo ∈ pojos, pojo.SelectsBranches)
    settings.referenceInlining ?_ ?_ ?_
  · intro pojos _ honly pojo hpojo
    rcases honly pojo hpojo with hentry | ⟨plain, rfl⟩
    · obtain ⟨before, hbefore, hbecomes⟩ := course.settles.exists_becomes hentry
      have hbare := course.isBare before hbefore
      obtain ⟨key, classified⟩ := before
      cases hbecomes with
      | pojo =>
        intro discriminator hmem
        rw [Pojo.discriminators_of_compositions hbare] at hmem
        cases hmem
      | stub hready hresolve =>
        obtain ⟨-, rfl⟩ := ClassTable.resolve_eq_ok_iff.mp hresolve
        exact Stub.selectsBranches_toPojo _ _
    · intro discriminator hmem
      cases hmem
  all_goals
    intro _ pojos h revised hrevised
    obtain ⟨pojo, hpojo, rfl⟩ := List.mem_map.mp hrevised
    exact (h pojo hpojo).revise _

variable {course}

/-- **Discriminators mention types by their own names**, at any depth: an entry names a branch,
which is a copy of a type of the course. -/
theorem exists_mem_pojos_of_dispatches {pojo : Pojo} (hpojo : pojo ∈ course.pojos)
    {name : PojoName} (h : pojo.Dispatches name) : ∃ top ∈ course.pojos, top.name = name := by
  have hown : ∀ other ∈ course.pojos, ∀ discriminator ∈ other.discriminators,
      name ∈ discriminator.targets → ∃ top ∈ course.pojos, top.name = name := by
    intro other hother discriminator hmem hname
    obtain ⟨branches, hbranches, branch, hbranch, rfl⟩ :=
      course.selectsBranches other hother discriminator hmem name hname
    obtain ⟨top, htop, hmakes⟩ := (course.copiesAgree other hother branches hbranches).2 _ hbranch
    exact ⟨top, htop, (Pojo.name_of_asBranch hmakes).symm⟩
  rcases h with ⟨discriminator, hmem, hname⟩ | ⟨branch, hbranch, discriminator, hmem, hname⟩
  · exact hown pojo hpojo discriminator hmem hname
  · obtain ⟨top, htop, hmakes⟩ := course.copiesAgree.exists_asBranch hpojo hbranch
    rw [Pojo.discriminators_of_asBranch hmakes] at hmem
    exact hown top htop discriminator hmem hname

end Course

end PojoGraph
