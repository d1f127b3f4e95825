import PojoGraph.Proofs.Run.Additional

/-!
# Where members and types come from

Members of final objects are copied from branch to branch, but each has been declared once: it is
what becomes of a property of some schema of the run. So it is with types. Each type that a final
type holds, at any depth, is what becomes of one that a schema has been mapped to.

## Main definitions

* `Course.MakesMember` — a member is what becomes of a property of a schema.

## Main statements

* `Course.exists_makesMember` — each member of a final object has been declared.
* `Course.exists_mapSchema_of_holds` — each type in the final set has been mapped.
-/

namespace PojoGraph

/-! ## Types of classification -/

/-- The type has been mapped: it is that of some schema at some member. -/
def IsMapped (settings : Settings) (type : DataType) : Prop :=
  ∃ owner member registry schema, type = (mapSchema settings owner member registry schema).type

section

variable {settings : Settings} {owner : PojoName} {survey : Survey}

theorem isMapped_mapType (member : String) (schema : Schema) :
    IsMapped settings (survey.mapType settings owner member schema).1 :=
  ⟨owner, member, survey.registry, schema, rfl⟩

/-- The type of any value is that of the schema without keywords. -/
theorem isMapped_freeForm : IsMapped settings .freeForm := by
  refine ⟨default, "", {}, .inline {}, ?_⟩
  rw [mapSchema_inline]
  rfl

theorem isMapped_of_additionalOf {k : Keywords Schema} {type : DataType}
    (h : (additionalOf settings owner k survey).1 = .allowed type) : IsMapped settings type := by
  rw [additionalOf] at h
  split at h
  · cases h
  · cases h
  · cases h
    exact isMapped_freeForm
  · split at h
    · cases h
      exact isMapped_freeForm
    · dsimp only at h
      rw [AdditionalProperties.ofType] at h
      split at h
      · cases h
        exact isMapped_freeForm
      · cases h
        exact isMapped_mapType _ _

variable {pending : Pending} {registry : Registry}

theorem isMapped_of_classify_array {name : PojoName} {description : Option String}
    {value : Member} (h : classify settings pending registry
      = .ok (.pojo (.array name description value), survey)) : IsMapped settings value.type := by
  obtain ⟨name, schema⟩ := pending
  cases schema with
  | ref target => cases h
  | inline k =>
    cases classifies_classify h with
    | array hshape => exact isMapped_mapType _ _
    | enum hsimple hvalues henum =>
      obtain ⟨⟨values, heq⟩, -⟩ := eq_enum_of_enumOf henum
      cases heq

theorem isMapped_of_classify_plain {plain : PlainMember}
    (h : classify settings pending registry = .ok (.plain plain, survey)) :
    IsMapped settings plain.type := by
  obtain ⟨name, schema⟩ := pending
  cases schema with
  | ref target =>
    cases h
    exact isMapped_mapType _ _
  | inline k =>
    cases classifies_classify h with
    | nullReference hshape hreference => exact isMapped_mapType _ _
    | plain hsimple hvalues hfree hsurvey => exact isMapped_mapType _ _

end

/-- A member that a schema declares is that of one of its properties. -/
theorem Keywords.Declares.exists_property {settings : Settings} {owner : PojoName}
    {k : Keywords Schema} {members : List Member} (h : k.Declares settings owner members)
    {member : Member} (hmember : member ∈ members) :
    ∃ property ∈ k.properties, ∃ survey,
      member = (memberOf settings owner k.required survey property).1 := by
  rw [Declares] at h
  generalize k.properties = properties at h ⊢
  induction h with
  | nil => cases hmember
  | @cons property first rest members hfirst _ ih =>
    rcases List.mem_cons.mp hmember with rfl | hrest
    · exact ⟨property, List.mem_cons_self, hfirst⟩
    · obtain ⟨property, hproperty, hdeclared⟩ := ih hrest
      exact ⟨property, List.mem_cons_of_mem _ hproperty, hdeclared⟩

/-! ## Members of final objects -/

/-- An object that a pojo is or embeds embeds its own branches there. -/
theorem Pojo.embeds_of_mem_branches {pojo : Pojo} {object branch : ObjectPojo}
    (h : pojo = .object object ∨ pojo.Embeds object) (hbranch : branch ∈ object.branches) :
    pojo.Embeds branch := by
  obtain ⟨branches, hbranches, hmem⟩ := ObjectPojo.mem_branches_iff.mp hbranch
  rcases h with rfl | hembeds
  · exact .direct hbranches hmem
  · exact .nested hembeds hbranches hmem

namespace Course

variable {settings : Settings} {isLoaded : String → Bool} {documents : List Document}

/-- The member is what becomes of that of a property which the schema declares. -/
def MakesMember (course : Course settings isLoaded documents) (schema : Pending)
    (property : String × Schema) (member : Member) : Prop :=
  schema ∈ course.queue ∧ ∃ k survey, schema.schema = .inline k ∧ property ∈ k.properties
    ∧ member = course.revision.member (memberOf settings schema.name k.required survey property).1

variable {course : Course settings isLoaded documents} {set : PojoSet}

theorem type_revision_member (member : Member) :
    (course.revision.member member).type = course.revision.type member.type :=
  Revision.type_member_ofEntries_eq settings course.final.entries member

/-- What any value may be stays so in the final set. -/
theorem type_revision_freeForm : course.revision.type .freeForm = .freeForm := by
  rw [revision, Revision.type_ofEntries_eq]
  have hstays : DataType.freeForm.substituteAll
      (replacementsOf settings.referenceInlining course.final.entries) = .freeForm :=
    substituteAll_of_forall fun replacement _ => rfl
  rw [hstays]
  rfl

section

variable (hmakes : course.Makes set) (hcopies : CopiesAgree set.pojos)

include hmakes hcopies

/-- **Each member of a final object has been declared.** It is what becomes of a property of some
schema of the run, however deep the object is embedded. -/
theorem exists_makesMember {object : ObjectPojo} {member : Member} {pojo : Pojo}
    (hpojo : pojo ∈ set.pojos) (hobject : pojo = .object object ∨ pojo.Embeds object)
    (hmember : member ∈ object.members) :
    ∃ schema property, course.MakesMember schema property member := by
  -- The members of a branch come first, and a branch stands in a type of the set, too.
  induction object using ObjectPojo.branchInduction generalizing member with
  | step object ih =>
    rcases exists_endsAs_or_isBare hmakes hcopies hpojo hobject with ⟨schema, hends⟩ | hbare
    · obtain ⟨k, original, hfollows, rfl⟩ := hends.exists_follows
      rw [ObjectPojo.members_revise] at hmember
      obtain ⟨copied, hcopied, rfl⟩ := List.mem_map.mp hmember
      obtain ⟨declared, hdeclares, hmembers⟩ := hfollows.members
      rw [hmembers, List.mem_append] at hcopied
      rcases hcopied with hcopied | hdeclared
      · obtain ⟨branch, hbranch, hcopied⟩ := List.mem_flatMap.mp hcopied
        have hmem : branch.revise course.revision
            ∈ (original.revise course.revision).branches := by
          rw [ObjectPojo.branches_revise, ObjectPojo.branches, List.append_assoc]
          exact List.mem_map_of_mem (List.mem_append_left _ hbranch)
        refine ih _ hmem (.inr (Pojo.embeds_of_mem_branches hobject hmem)) ?_
        rw [ObjectPojo.members_revise]
        exact List.mem_map_of_mem hcopied
      · obtain ⟨property, hproperty, survey, rfl⟩ := hdeclares.exists_property hdeclared
        exact ⟨schema, property, hends.mem_queue, k, survey, hfollows.schema_eq, hproperty, rfl⟩
    · rw [hbare.members] at hmember
      cases hmember

/-! ## Types in the final set -/

theorem exists_isMapped_of_object_holds {pojo : Pojo} (hpojo : pojo ∈ set.pojos)
    {object : ObjectPojo} (hobject : pojo = .object object ∨ pojo.Embeds object)
    {type : DataType} (h : object.Holds type) :
    ∃ mapped, IsMapped settings mapped ∧ type = course.revision.type mapped := by
  cases h with
  | member hmember =>
    obtain ⟨schema, property, -, k, survey, -, -, rfl⟩ :=
      exists_makesMember hmakes hcopies hpojo hobject hmember
    exact ⟨_, isMapped_mapType property.1 property.2, type_revision_member _⟩
  | additional hadditional =>
    rcases exists_endsAs_or_isBare hmakes hcopies hpojo hobject with ⟨schema, hends⟩ | hbare
    · obtain ⟨given, hgives⟩ := hends.exists_givesAdditional hadditional
      obtain ⟨k, survey, -, hgiven⟩ := hgives.gives
      refine ⟨given, isMapped_of_additionalOf hgiven, ?_⟩
      exact AdditionalProperties.allowed.inj (hadditional.symm.trans hgives.becomes)
    · rcases hbare.additional with hnone | hfree
      · rw [hnone] at hadditional
        cases hadditional
      · rw [hfree] at hadditional
        cases hadditional
        exact ⟨.freeForm, isMapped_freeForm, type_revision_freeForm.symm⟩

omit hmakes hcopies in
theorem isMapped_of_mem_plains {plain : PlainMember} (h : plain ∈ course.plains) :
    IsMapped settings plain.type := by
  obtain ⟨visit, hvisit, hbecomes⟩ := course.exists_becomes_of_mem (mem_plainMembers_iff.mp h)
  have hvalid := course.valid visit hvisit
  obtain ⟨pending, registry, classified, survey⟩ := visit
  cases hbecomes with
  | plain _ => exact isMapped_of_classify_plain hvalid

omit hmakes hcopies in
theorem isMapped_of_mem_entries_array {name : PojoName} {description : Option String}
    {value : Member} (h : .pojo (.array name description value) ∈ course.final.entries) :
    IsMapped settings value.type := by
  obtain ⟨visit, hvisit, hbecomes⟩ := course.exists_becomes_of_mem h
  have hvalid := course.valid visit hvisit
  obtain ⟨pending, registry, classified, survey⟩ := visit
  cases hbecomes with
  | pojo _ => exact isMapped_of_classify_array hvalid
  | @stub stub _ hready hresolve =>
    obtain ⟨-, hpojo⟩ := ClassTable.resolve_eq_ok_iff.mp hresolve
    rw [Stub.toPojo] at hpojo
    split at hpojo <;> cases hpojo

/-- **Each type in the final set has been mapped.** What a final type holds, at any depth, is what
becomes of the type of some schema. -/
theorem exists_mapSchema_of_holds {pojo : Pojo} (hpojo : pojo ∈ set.pojos) {type : DataType}
    (h : pojo.Holds type) :
    ∃ mapped, IsMapped settings mapped ∧ type = course.revision.type mapped := by
  cases h with
  | object h => exact exists_isMapped_of_object_holds hmakes hcopies hpojo (.inl rfl) h
  | branch hembeds h =>
    exact exists_isMapped_of_object_holds hmakes hcopies hpojo (.inr hembeds) h
  | array name description value =>
    rw [hmakes.pojos_eq_revise] at hpojo
    obtain ⟨original, horiginal, heq⟩ := List.mem_map.mp hpojo
    cases original with
    | array name' description' value' =>
      cases heq
      rcases mem_keptPojos_iff.mp horiginal with hentry | ⟨plain, -, halias, -⟩
      · exact ⟨_, isMapped_of_mem_entries_array hentry, type_revision_member _⟩
      · cases halias
    | _ => cases heq
  | typeAlias name description type nullability =>
    rw [hmakes.pojos_eq_revise] at hpojo
    obtain ⟨original, horiginal, heq⟩ := List.mem_map.mp hpojo
    cases original with
    | typeAlias name' description' type' nullability' =>
      cases heq
      rcases mem_keptPojos_iff.mp horiginal with hentry | ⟨plain, hplain, halias, -⟩
      · cases course.areSettled.notAlias _ hentry
      · cases halias
        exact ⟨_, isMapped_of_mem_plains (mem_plainMembers_iff.mpr hplain), rfl⟩
    | _ => cases heq

end

end Course

end PojoGraph
