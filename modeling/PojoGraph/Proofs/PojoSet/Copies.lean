import PojoGraph.Proofs.Checks
import PojoGraph.Proofs.PojoSet.Compositions
import PojoGraph.Proofs.Run.Course

/-!
# Copies in the final set

Branches are copied while compositions are resolved, and every step to the final set revises the
copies together with the pojos that they were made from. So the branches of the final pojos, at
any depth, are those that final pojos make, and no composition is empty.

## Main definitions

* `Classified.IsBare` — no compositions but those of a stub, which names branches.

## Main statements

* `isBare_of_classify` — what a schema is classified as is bare.
* `ClassTable.SettlesTo.copiesAgree` — copies agree once compositions are resolved.
* `Course.copiesAgree` — they agree until names are mapped.
* `copiesAgree_mapDocuments` — they agree after every run that succeeds.
-/

namespace PojoGraph

/-! ## Classification -/

/-- A pojo without compositions, a plain member, or a stub whose compositions name branches. -/
def Classified.IsBare : Classified → Prop
  | .pojo p => p.compositions = []
  | .stub s => ∀ kind names, s.branchesOf kind = some names → names ≠ []
  | .plain _ => True

section

variable {settings : Settings} {owner : PojoName} {k : Keywords Schema} {survey : Survey}

theorem length_mapWithState {α β σ : Type} (f : σ → α → β × σ) (state : σ) (as : List α) :
    (mapWithState f state as).1.length = as.length := by
  induction as generalizing state with
  | nil => rfl
  | cons a rest ih => simp [mapWithState, ih]

theorem ne_nil_of_branchesOf {kind : CompositionKind} {schemas : List Schema}
    {names : List PojoName} (h : (branchesOf settings owner kind schemas survey).1 = some names) :
    names ≠ [] := by
  rw [branchesOf] at h
  dsimp only at h
  split at h
  · cases h
  · rename_i hbranches
    cases h
    rw [ne_eq, ← List.length_eq_zero_iff, length_mapWithState, List.length_eq_zero_iff]
    simpa using hbranches

theorem isBare_stubOf : (Classified.stub (stubOf settings owner k survey).1).IsBare := by
  intro kind names hnames
  cases kind with
  | allOf => exact ne_nil_of_branchesOf hnames
  | oneOf =>
    obtain ⟨union, hunion, rfl⟩ := Option.map_eq_some_iff.mp hnames
    obtain ⟨branches, hbranches, rfl⟩ := Option.map_eq_some_iff.mp hunion
    exact ne_nil_of_branchesOf hbranches
  | anyOf =>
    obtain ⟨union, hunion, rfl⟩ := Option.map_eq_some_iff.mp hnames
    obtain ⟨branches, hbranches, rfl⟩ := Option.map_eq_some_iff.mp hunion
    exact ne_nil_of_branchesOf hbranches

/-- What a classification gives has no compositions yet. -/
theorem isBare_of_classify {pending : Pending} {registry : Registry} {classified : Classified}
    {survey' : Survey} (h : classify settings pending registry = .ok (classified, survey')) :
    classified.IsBare := by
  obtain ⟨name, schema⟩ := pending
  cases schema with
  | ref target =>
    cases h
    trivial
  | inline k =>
    cases classifies_classify h with
    | array hshape => rfl
    | nullReference hshape hreference => trivial
    | composed hshape hreference hcomposition => exact isBare_stubOf
    | object hshape hreference hcomposition hobject => rfl
    | enum hsimple hvalues henum =>
      obtain ⟨⟨values, rfl⟩, -⟩ := eq_enum_of_enumOf henum
      rfl
    | freeForm hsimple hvalues hfree => rfl
    | plain hsimple hvalues hfree hsurvey => trivial

end

/-! ## Resolution -/

/-- The compositions of a resolved stub are its branches, keyword by keyword. -/
theorem Stub.exists_kind_of_mem_compositions {stub : Stub} {branches : Branches}
    {objects : List ObjectPojo} (h : objects ∈ (stub.toPojo branches).compositions) :
    branches.allOf = some objects ∧ objects ≠ [] ∨ branches.oneOf = some objects
      ∨ branches.anyOf = some objects := by
  have hunion : ∀ {sketch : Option UnionSketch} {found : Option (List ObjectPojo)}
      {union : Alternatives ObjectPojo Discriminator},
      Stub.union sketch found = some union → found = some union.branches := by
    intro sketch found union hfound
    unfold Stub.union at hfound
    split at hfound
    · cases hfound
      rfl
    · cases hfound
  rw [Stub.toPojo] at h
  split at h
  · rename_i hone _
    rw [List.mem_singleton.mp h]
    exact .inr (.inl (hunion hone))
  · rename_i _ hany
    rw [List.mem_singleton.mp h]
    exact .inr (.inr (hunion hany))
  · simp only [Pojo.compositions, ObjectPojo.compositions, Stub.toObject, List.mem_append,
      Option.mem_toList, Option.map_eq_some_iff] at h
    rcases h with (h | ⟨union, hone, rfl⟩) | ⟨union, hany, rfl⟩
    · obtain ⟨hall, hne⟩ := Option.filter_eq_some_iff.mp h
      exact .inl ⟨hall, by simpa using hne⟩
    · exact .inr (.inl (hunion hone))
    · exact .inr (.inr (hunion hany))

namespace ClassTable

variable {table final : ClassTable}

/-- An object that a name leads to is the branch that some pojo of the table makes. -/
theorem exists_asBranch_of_lead {name : PojoName} {object : ObjectPojo}
    (h : table.lead name = .object object) :
    ∃ pojo, .pojo pojo ∈ table.entries ∧ pojo.asBranch = .ok object := by
  rcases table.lead_cases name with ⟨stop, hends, hlead⟩ | hcyclic
  · rw [h] at hlead
    cases stop with
    | none => cases hlead
    | some classified =>
      cases classified with
      | stub stub => cases hlead
      | plain plain => cases hlead
      | pojo pojo =>
        obtain ⟨key, hmem⟩ := mem_of_endsIn hends
        refine ⟨pojo, List.mem_filterMap.mpr ⟨_, hmem, rfl⟩, ?_⟩
        cases hbranch : pojo.asBranch with
        | ok o =>
          simp only [Lead.ofEnd, hbranch] at hlead
          cases hlead
          rfl
        | error obstacle => simp [Lead.ofEnd, hbranch] at hlead
  · rw [h] at hcyclic
    cases hcyclic

/-- A keyword of a stub that is ready has branches, and each is made by a pojo of the table. -/
theorem of_objectsOf_eq_some {stub : Stub} (hready : table.IsReady stub)
    (hbare : (Classified.stub stub).IsBare) {kind : CompositionKind} {objects : List ObjectPojo}
    (h : table.objectsOf stub kind = some objects) :
    objects ≠ []
      ∧ ∀ object ∈ objects, ∃ pojo, .pojo pojo ∈ table.entries ∧ pojo.asBranch = .ok object := by
  obtain ⟨names, hnames, rfl⟩ := Option.map_eq_some_iff.mp h
  constructor
  · obtain ⟨name, hname⟩ := List.exists_mem_of_ne_nil names (hbare kind names hnames)
    obtain ⟨object, hobject⟩ := hready name (mem_branchNames_of_branchesOf hnames hname)
    have hmem : object ∈ names.filterMap fun name => (table.lead name).object? := by
      refine List.mem_filterMap.mpr ⟨name, hname, ?_⟩
      rw [hobject]
      rfl
    exact List.ne_nil_of_mem hmem
  · intro object hobject
    obtain ⟨name, -, hlead⟩ := List.mem_filterMap.mp hobject
    cases hcase : table.lead name with
    | object o =>
      rw [hcase] at hlead
      cases hlead
      exact exists_asBranch_of_lead hcase
    | waiting => rw [hcase] at hlead; cases hlead
    | invalid obstacle => rw [hcase] at hlead; cases hlead

/-- **Once compositions are resolved, copies agree** among the resolved pojos, whatever else
without compositions is put beside them. -/
theorem SettlesTo.copiesAgree (h : table.SettlesTo final)
    (hbare : ∀ entry ∈ table, entry.2.IsBare) {pojos : List Pojo}
    (hall : ∀ pojo, .pojo pojo ∈ final.entries → pojo ∈ pojos)
    (honly : ∀ pojo ∈ pojos, .pojo pojo ∈ final.entries ∨ pojo.compositions = []) :
    CopiesAgree pojos := by
  intro pojo hpojo branches hbranches
  rcases honly pojo hpojo with hentry | hnone
  · obtain ⟨before, hbefore, hbecomes⟩ := h.exists_becomes hentry
    have hbefore := hbare before hbefore
    obtain ⟨key, classified⟩ := before
    cases hbecomes with
    | pojo =>
      rw [show pojo.compositions = [] from hbefore] at hbranches
      cases hbranches
    | @stub stub _ hready hresolve =>
      obtain ⟨-, rfl⟩ := resolve_eq_ok_iff.mp hresolve
      have hfound : ∀ kind, final.objectsOf stub kind = some branches →
          branches ≠ [] ∧ ∀ branch ∈ branches, ∃ top ∈ pojos, top.asBranch = .ok branch := by
        intro kind hkind
        obtain ⟨hne, hmade⟩ := of_objectsOf_eq_some hready hbefore hkind
        refine ⟨hne, fun branch hbranch => ?_⟩
        obtain ⟨top, htop, hmakes⟩ := hmade branch hbranch
        exact ⟨top, hall top htop, hmakes⟩
      rcases Stub.exists_kind_of_mem_compositions hbranches with ⟨hkind, -⟩ | hkind | hkind
      · exact hfound .allOf hkind
      · exact hfound .oneOf hkind
      · exact hfound .anyOf hkind
  · rw [hnone] at hbranches
    cases hbranches

end ClassTable

/-! ## The final set -/

/-- **Copies agree until names are mapped**: plain types are put in place of references and
descriptions are passed on in copies as in the pojos that make them. -/
theorem ClassTable.SettlesTo.copiesAgree_described {table final : ClassTable}
    (h : table.SettlesTo final) (hbare : ∀ entry ∈ table, entry.2.IsBare)
    (inlining : ReferenceInlining) :
    CopiesAgree (PojoSet.ofResolved inlining final.entries).describe.pojos := by
  refine PojoSet.described_induction inlining ?_ ?_ ?_
  · intro pojos hall honly
    refine h.copiesAgree hbare hall fun pojo hpojo => ?_
    rcases honly pojo hpojo with hentry | ⟨plain, rfl⟩
    · exact .inl hentry
    · exact .inr rfl
  · intro replacement pojos hagree
    exact hagree.map_revise (Revision.keepsFreeForm_substitute replacement)
  · intro described pojos hagree
    exact hagree.map_revise (Revision.keepsFreeForm_describe described)

/-! ## Runs -/

namespace Course

variable {settings : Settings} {isLoaded : String → Bool} {documents : List Document}
  (course : Course settings isLoaded documents)

/-- What the visits of a course have classified is bare. -/
theorem isBare : ∀ entry ∈ course.visits.map Visit.entry, entry.2.IsBare := by
  intro entry hentry
  obtain ⟨visit, hvisit, rfl⟩ := List.mem_map.mp hentry
  exact isBare_of_classify (course.valid visit hvisit)

theorem copiesAgree : CopiesAgree course.pojos :=
  course.settles.copiesAgree_described course.isBare settings.referenceInlining

end Course

section

variable {settings : Settings} {set : PojoSet}

/-- **Copies agree in the final set**, in which all types have been renamed. -/
theorem copiesAgree_mapDocuments {isLoaded : String → Bool} {documents : List Document}
    (h : (mapDocuments settings isLoaded documents).2 = .ok set) : CopiesAgree set.pojos := by
  obtain ⟨course, hmakes⟩ := exists_course h
  rw [hmakes.pojos]
  exact course.copiesAgree.map_revise (Revision.keepsFreeForm_rename settings.mapName)

/-- **Embedded copies agree with the final set**, for one document and for a set of documents:
every branch of a final pojo, at any depth, is the branch that some pojo of the set makes, and no
composition at any depth is without branches. -/
theorem embedded_branches_agree
    (h : (∃ document, (mapDocument settings document).2 = .ok set)
      ∨ ∃ documents, (mapDocumentSet settings documents).2 = .ok set) :
    ∀ pojo ∈ set.pojos,
      (∀ branch, pojo.Embeds branch → ∃ top ∈ set.pojos, top.asBranch = .ok branch)
        ∧ (∀ branches ∈ pojo.compositions, branches ≠ [])
        ∧ ∀ branch, pojo.Embeds branch → ∀ branches ∈ branch.compositions, branches ≠ [] := by
  have hagree : CopiesAgree set.pojos := by
    rcases h with ⟨document, h⟩ | ⟨documents, h⟩
    · exact copiesAgree_mapDocuments h
    · exact copiesAgree_mapDocuments h
  intro pojo hpojo
  refine ⟨?_, ?_, ?_⟩
  · intro branch hembeds
    exact hagree.exists_asBranch hpojo hembeds
  · intro branches hbranches
    exact (hagree pojo hpojo branches hbranches).1
  · intro branch hembeds
    exact hagree.ne_nil_of_embeds hpojo hembeds

end

/-- An owner that is composed of a pet, and a pet that is a cat. -/
def household : Document :=
  .ofSchemas
    [("Cat", .inline { properties := [("name", .inline { types := some (.single .string) })] }),
      ("Pet", .inline { oneOf := [.ref "#/components/schemas/Cat"] }),
      ("Owner", .inline { allOf := [.ref "#/components/schemas/Pet"] })]

/-- **The cat inside the pet of an owner** is a copy of the cat, with its members and with the name
that it has been given. -/
theorem embedded_branches_agree_household :
    ∃ set, (mapDocument { nameMappings := [⟨"Cat", "Kitten"⟩] } household).2 = .ok set
      ∧ ∃ owner ∈ set.pojos, owner.name.raw = "Owner"
        ∧ ∃ branch, owner.Embeds branch ∧ branch.name.raw = "Kitten"
          ∧ branch.members.map (·.name) = ["name"] ∧ .object branch ∈ set.pojos := by
  obtain ⟨set, hset, hcheck⟩ := exists_ok_of_any_toOption
    (show ((mapDocument { nameMappings := [⟨"Cat", "Kitten"⟩] } household).2.toOption.any fun set =>
      set.pojos.any fun owner => decide (owner.name.raw = "Owner")
        && owner.compositions.any fun outers => outers.any fun outer =>
          outer.compositions.any fun branches => branches.any fun branch =>
            decide (branch.name.raw = "Kitten" ∧ branch.members.map (·.name) = ["name"])) = true
      by decide +kernel)
  simp only [List.any_eq_true, Bool.and_eq_true, decide_eq_true_eq] at hcheck
  obtain ⟨owner, howner, hname, outers, houters, outer, houter, branches, hbranches, branch,
    hbranch, hkitten, hmembers⟩ := hcheck
  have hembeds : owner.Embeds branch := .nested (.direct houters houter) hbranches hbranch
  have hagree := embedded_branches_agree (.inl ⟨_, hset⟩) owner howner
  obtain ⟨top, htop, hcopy⟩ := hagree.1 branch hembeds
  have hne : branch.members ≠ [] := by
    intro hnil
    rw [hnil] at hmembers
    cases hmembers
  obtain rfl := (Pojo.asBranch_eq_ok_iff hne).mp hcopy
  exact ⟨set, hset, owner, howner, hname, branch, hembeds, hkitten, hmembers, htop⟩

end PojoGraph
