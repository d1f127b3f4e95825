import PojoGraph.Proofs.Run.MemberStates
import PojoGraph.Proofs.Run.Plains

/-!
# Nullable references

A reference does not say whether null is among its values; a plain type that it leads to may. Where
plain types are kept, this is recorded with them. Where they are put in place of references, the
type of a member becomes the one in which the chain of its reference ends, while the state of the
member stays as it was: a member of a reference is never nullable, whatever its chain leads
through.

## Main definitions

* `Course.LeadsThrough` — the plain types on the chain of a reference.

## Main statements

* `Course.exists_schema_of_mem_plains` — plain types are nullable as their schemas are.
* `nullability_of_references` — when the member of a reference is as nullable as its chain.
-/

namespace PojoGraph

open Relation

/-- A plain type is nullable if and only if its schema is. -/
theorem nullability_of_classify {settings : Settings} {pending : Pending} {registry : Registry}
    {plain : PlainMember} {survey : Survey}
    (h : classify settings pending registry = .ok (.plain plain, survey)) :
    plain.nullability = pending.schema.nullability := by
  obtain ⟨name, schema⟩ := pending
  cases schema with
  | ref target =>
    cases h
    rfl
  | inline k =>
    cases classifies_classify h with
    | nullReference hshape hreference =>
      have hnull : k.isNullable = true := by
        rw [Keywords.isNullable, (Bool.and_eq_true_iff.mp hreference).1, Bool.or_true]
      rw [Schema.nullability, hnull]
      rfl
    | plain hsimple hvalues hfree hsurvey => rfl

/-- Each declared property has a member. -/
theorem Keywords.Declares.exists_of_mem {settings : Settings} {owner : PojoName}
    {k : Keywords Schema} {members : List Member} (h : k.Declares settings owner members)
    {property : String × Schema} (hproperty : property ∈ k.properties) :
    ∃ survey, (memberOf settings owner k.required survey property).1 ∈ members := by
  rw [Declares] at h
  generalize k.properties = properties at h hproperty
  induction h with
  | nil => cases hproperty
  | cons hhead _ ih =>
    rcases List.mem_cons.mp hproperty with rfl | hrest
    · obtain ⟨survey, rfl⟩ := hhead
      exact ⟨survey, List.mem_cons_self⟩
    · obtain ⟨survey, hmem⟩ := ih hrest
      exact ⟨survey, List.mem_cons_of_mem _ hmem⟩

namespace Course

variable {settings : Settings} {isLoaded : String → Bool} {documents : List Document}
  (course : Course settings isLoaded documents)

/-- The plain type is on the chain of the reference, which leads to a plain type and from each
plain type that is a reference to the next one. -/
def LeadsThrough (reference : String) (plain : PlainMember) : Prop :=
  ∃ first, plainTarget? course.plains (.object (settings.referenceName reference)) = some first
    ∧ ReflTransGen (PlainMember.Next course.plains) first plain

variable {course}

/-- **Each plain type stands for a schema of the run**, and is nullable as that schema is. -/
theorem exists_schema_of_mem_plains {plain : PlainMember} (h : plain ∈ course.plains) :
    ∃ schema ∈ course.queue,
      schema.name = plain.name ∧ plain.nullability = schema.schema.nullability := by
  obtain ⟨visit, hvisit, hbecomes⟩ := course.exists_becomes_of_mem (mem_plainMembers_iff.mp h)
  have hvalid := course.valid visit hvisit
  have hmem : visit.pending ∈ course.queue := List.mem_map_of_mem hvisit
  obtain ⟨pending, before, classified, survey⟩ := visit
  cases hbecomes with
  | plain _ =>
    exact ⟨pending, hmem, (name_of_classify hvalid).symm, nullability_of_classify hvalid⟩

/-- A final object has one member for each reference that its schema declares. The member is not
nullable; its type is what becomes of the reference. -/
theorem EndsAs.exists_member_of_ref {schema : Pending} {object : ObjectPojo}
    (h : course.EndsAs schema object)
    (hdistinct : ∀ document ∈ documents, document.HasDistinctProperties) :
    ∃ k, schema.schema = .inline k ∧ ∀ name target, (name, .ref target) ∈ k.properties →
      ∃ member, object.members.filter (·.name == name) = [member]
        ∧ member.type = course.revision.type (.object (settings.referenceName target))
        ∧ member.nullability = .notNullable := by
  obtain ⟨hnodup, -, k, declared, hschema, hdeclares, hmembers⟩ := h.flattens hdistinct
  refine ⟨k, hschema, fun name target hproperty => ?_⟩
  obtain ⟨survey, hdeclared⟩ := hdeclares.exists_of_mem hproperty
  generalize hmember : (memberOf settings schema.name k.required survey (name, .ref target)).1
    = member at hdeclared
  have hkeeps : course.revision.KeepsMembers := keepsMembers_revision
  obtain ⟨hname, -, hnullability⟩ := hkeeps member
  have hmem : course.revision.member member ∈ object.members := by
    rw [hmembers]
    exact List.mem_append_right _ (List.mem_map_of_mem hdeclared)
  have htype : member.type = .object (settings.referenceName target) := by
    rw [← hmember]
    simp only [memberOf, Survey.mapType, mapSchema_ref]
    rfl
  have hown : member.name = name := hmember ▸ rfl
  refine ⟨course.revision.member member, ?_, ?_, ?_⟩
  · rw [← hown, ← hname]
    exact filter_eq_singleton_of_nodup_map hnodup hmem
  · rw [revision, Revision.type_member_ofEntries_eq, htype]
  · rw [hnullability, ← hmember]
    rfl

end Course

/-- **When the member of a reference is as nullable as its chain.** In a run that succeeds, over
documents in which no schema declares a property twice, take an object that a schema ends as, and a
reference that the schema declares as a property. The object has just one member for it. Where
plain types are put in place of references, the member has the type in which the chain of the
reference ends. But it is not nullable, so that it is as nullable as the plain types on the chain if
and only if none of these is nullable. The plain types are nullable as their schemas are. They are
generated, as aliases that record this, if plain types are kept or their chains run into a circle,
and otherwise they are not. -/
theorem nullability_of_references {settings : Settings} {isLoaded : String → Bool}
    {documents : List Document} {set : PojoSet}
    (hdistinct : ∀ document ∈ documents, document.HasDistinctProperties)
    (h : (mapDocuments settings isLoaded documents).2 = .ok set) :
    ∃ course : Course settings isLoaded documents, course.Makes set
      ∧ (∀ schema object, course.EndsAs schema object → .object object ∈ set.pojos
        ∧ ∃ k, schema.schema = .inline k ∧ ∀ name target, (name, .ref target) ∈ k.properties →
          ∃ member, object.members.filter (·.name == name) = [member]
            ∧ (settings.referenceInlining = .simple → ∀ path final,
              LeadsTo course.plains (.object (settings.referenceName target)) path final →
                member.type = final.rename settings.mapName)
            ∧ member.nullability = .notNullable
            ∧ (((∃ plain, course.LeadsThrough target plain ∧ plain.nullability = .nullable) →
                member.nullability = .nullable)
              ↔ ∀ plain, course.LeadsThrough target plain → plain.nullability = .notNullable))
      ∧ ∀ plain ∈ course.plains,
        (∃ schema ∈ course.queue,
          schema.name = plain.name ∧ plain.nullability = schema.schema.nullability)
        ∧ ((∃ pojo ∈ course.pojos, pojo.name = plain.name)
          ↔ settings.referenceInlining = .never
            ∨ RunsIntoCycle (PlainMember.Next course.plains) plain)
        ∧ ∀ pojo ∈ course.pojos, pojo.name = plain.name →
          ∃ type, pojo = .typeAlias plain.name plain.description type plain.nullability := by
  obtain ⟨course, hmakes⟩ := exists_course h
  refine ⟨course, hmakes, fun schema object hends => ⟨hends.mem_pojos hmakes, ?_⟩,
    fun plain hplain => ⟨course.exists_schema_of_mem_plains hplain,
      course.exists_pojo_iff_of_mem_plains hplain⟩⟩
  obtain ⟨k, hschema, hmembers⟩ := hends.exists_member_of_ref hdistinct
  refine ⟨k, hschema, fun name target hproperty => ?_⟩
  obtain ⟨member, hsingle, htype, hnullability⟩ := hmembers name target hproperty
  refine ⟨member, hsingle, fun hsimple path final hleads => ?_, hnullability, ?_⟩
  · rw [htype]
    exact Course.type_revision_of_leadsTo hsimple trivial hleads
  · rw [hnullability]
    constructor
    · intro hkeeps plain hplain
      cases hnull : plain.nullability with
      | nullable => cases hkeeps ⟨plain, hplain, hnull⟩
      | notNullable => rfl
    · rintro hnone ⟨plain, hplain, hnull⟩
      rw [hnone plain hplain] at hnull
      cases hnull

/-- What an alias records of null. -/
def Pojo.recorded? : Pojo → Option Nullability
  | typeAlias _ _ _ nullability => some nullability
  | _ => none

/-- Pets with a keeper, who may be missing, and a label. -/
def keptPets : Document :=
  .ofSchemas
    [("Owner", .inline { properties := [("id", .inline { types := some (.single .string) })] }),
      ("MaybeOwner", .inline { anyOf := [.ref "#/components/schemas/Owner",
        .inline { types := some (.single .null) }] }),
      ("Label", .inline { types := some (.single .string) }),
      ("Pet", .inline { properties := [("keeper", .ref "#/components/schemas/MaybeOwner"),
        ("label", .ref "#/components/schemas/Label")] })]

/-- **Nullability is lost**: the reference to the keeper leads through a nullable plain type, but
the member is not nullable and no type tells of it, as one does where plain types are kept. -/
theorem nullable_reference_lost :
    (∃ set, (mapDocuments { referenceInlining := .simple } (fun _ => false) [keptPets]).2 = .ok set
      ∧ (∃ course : Course { referenceInlining := .simple } (fun _ => false) [keptPets],
        course.Makes set ∧ ∃ plain, course.LeadsThrough "#/components/schemas/MaybeOwner" plain
          ∧ plain.nullability = .nullable)
      ∧ set.pojos.map (·.name.raw) = ["Owner", "Pet"]
      ∧ ∃ object, .object object ∈ set.pojos ∧ object.name.raw = "Pet"
        ∧ object.members.map (fun member => (member.name, member.type, member.nullability))
          = [("keeper", .object ⟨"Owner", ""⟩, .notNullable),
            ("label", .scalar (.string .plain), .notNullable)])
    ∧ ∃ set, (mapDocuments { referenceInlining := .never } (fun _ => false) [keptPets]).2 = .ok set
      ∧ ∃ pojo ∈ set.pojos, pojo.name.raw = "MaybeOwner" ∧ pojo.recorded? = some .nullable := by
  constructor
  · obtain ⟨set, hset, hpojos⟩ := exists_ok_of_any_toOption
      (show ((mapDocuments { referenceInlining := .simple } (fun _ => false)
          [keptPets]).2.toOption.any fun set =>
        decide (set.pojos.map (·.name.raw) = ["Owner", "Pet"])
          && (set.pojos.filterMap (·.object?)).any fun object => object.name.raw == "Pet"
            && object.members.map (fun member => (member.name, member.type, member.nullability))
              == [("keeper", .object ⟨"Owner", ""⟩, .notNullable),
                ("label", .scalar (.string .plain), .notNullable)]) = true by decide +kernel)
    obtain ⟨hnames, hobjects⟩ := Bool.and_eq_true_iff.mp hpojos
    obtain ⟨object, hobject, hpet⟩ := exists_object_of_any hobjects
    simp only [Bool.and_eq_true, beq_iff_eq] at hpet
    obtain ⟨course, hmakes⟩ := exists_course hset
    obtain ⟨warnings, -, hcourse⟩ := course.resolveDocuments_eq
    obtain ⟨resolved, hresolved, hfirst⟩ := exists_ok_of_any_toOption
      (show ((resolveDocuments { referenceInlining := .simple } (fun _ => false)
          [keptPets]).toOption.any fun resolved =>
        (plainTarget? (plainMembers resolved.2.entries) (.object ⟨"MaybeOwner", ""⟩)).any
          (·.nullability == .nullable)) = true by decide +kernel)
    obtain rfl := Except.ok.inj (hcourse.symm.trans hresolved)
    obtain ⟨plain, hplain, hnull⟩ := Option.any_eq_true _ _ |>.mp hfirst
    have hthrough : course.LeadsThrough "#/components/schemas/MaybeOwner" plain :=
      ⟨plain, hplain, .refl⟩
    exact ⟨set, hset, ⟨course, hmakes, plain, hthrough, beq_iff_eq.mp hnull⟩,
      of_decide_eq_true hnames, object, hobject, hpet⟩
  · obtain ⟨set, hset, hpojos⟩ := exists_ok_of_any_toOption
      (show ((mapDocuments { referenceInlining := .never } (fun _ => false)
          [keptPets]).2.toOption.any fun set => set.pojos.any fun pojo =>
        pojo.name.raw == "MaybeOwner" && pojo.recorded? == some .nullable) = true
        by decide +kernel)
    simp only [List.any_eq_true, Bool.and_eq_true, beq_iff_eq] at hpojos
    exact ⟨set, hset, hpojos⟩

theorem hasDistinctProperties_keptPets :
    ∀ document ∈ [keptPets], document.HasDistinctProperties := by
  intro document hdocument entry hentry
  obtain rfl := List.mem_singleton.mp hdocument
  simp only [keptPets, Document.ofSchemas, Document.schemas, List.mem_cons, List.not_mem_nil,
    or_false] at hentry
  rcases hentry with rfl | rfl | rfl | rfl
  · refine Schema.HasDistinctProperties.inline_iff.mpr ⟨by decide, fun child hchild => ?_⟩
    obtain rfl := List.mem_singleton.mp hchild
    exact .ofFacets _
  · refine Schema.HasDistinctProperties.inline_iff.mpr ⟨by decide, fun child hchild => ?_⟩
    rcases List.mem_pair.mp hchild with rfl | rfl
    · exact .ref _
    · exact .ofFacets _
  · exact .ofFacets _
  · refine Schema.HasDistinctProperties.inline_iff.mpr ⟨by decide, fun child hchild => ?_⟩
    rcases List.mem_pair.mp hchild with rfl | rfl <;> exact .ref _

/-- The members of pets are not nullable, and tell the truth if no plain type on their chains is
nullable. -/
theorem nullability_of_references_for_pets :
    (∀ document ∈ [keptPets], document.HasDistinctProperties)
    ∧ ∃ set, (mapDocuments {} (fun _ => false) [keptPets]).2 = .ok set
      ∧ ∃ object, .object object ∈ set.pojos ∧ object.name.raw = "Pet"
        ∧ ∃ (course : Course {} (fun _ => false) [keptPets]) (schema : Pending),
          course.EndsAs schema object ∧ ∃ k, schema.schema = .inline k
            ∧ ∀ name target, (name, .ref target) ∈ k.properties → ∃ member,
              object.members.filter (·.name == name) = [member]
                ∧ member.nullability = .notNullable := by
  obtain ⟨set, hset, hobjects⟩ := exists_ok_of_any_toOption
    (show ((mapDocuments {} (fun _ => false) [keptPets]).2.toOption.any fun set =>
      (set.pojos.filterMap (·.object?)).any fun object => object.name.raw == "Pet") = true
      by decide +kernel)
  obtain ⟨object, hobject, hname⟩ := exists_object_of_any hobjects
  obtain ⟨course, hmakes, hends, -⟩ :=
    nullability_of_references hasDistinctProperties_keptPets hset
  obtain ⟨schema, hschema⟩ := Course.exists_endsAs hmakes hobject
  obtain ⟨-, k, hk, hproperties⟩ := hends schema object hschema
  refine ⟨hasDistinctProperties_keptPets, set, hset, object, hobject, beq_iff_eq.mp hname, course,
    schema, hschema, k, hk, fun name target hproperty => ?_⟩
  obtain ⟨member, hmember, -, hnull, -⟩ := hproperties name target hproperty
  exact ⟨member, hmember, hnull⟩

end PojoGraph
