import PojoGraph.Proofs.PojoSet.Descriptions
import PojoGraph.Proofs.Run.Mappings
import PojoGraph.Proofs.Run.Nullability
import PojoGraph.Proofs.Run.Origins

/-!
# Descriptions of members

A member that is a reference and has no description gets one from where its reference leads: from
the plain types that are put in its place, or from the generated type that it then refers to. Each
plain type comes with the type in which its chain ends, so that a member goes through a whole chain
in one step, and takes over the description of the first plain type on it. The others are passed
over.

## Main definitions

* `Schema.directTarget?` — where a schema that is a direct reference leads.
* `Course.GoesThrough` — the plain types that a reference goes through.
* `Course.nearest` — the first description on the way of a reference.
* `Course.PassesOver` — a description on the way that the member does not get.

## Main statements

* `Course.GoesThrough.member_revision` — what becomes of a member that goes a way.
* `nearest_description_iff` — when a member has the nearest description.
-/

namespace PojoGraph

/-! ## Descriptions of schemas -/

/-- The reference that a schema is, or that it is composed of alone. -/
def Schema.directTarget? : Schema → Option String
  | .ref target => some target
  | .inline k => k.singleReference?

/-- What a schema says of itself. A reference says nothing. -/
def Schema.description : Schema → Option String
  | .ref _ => none
  | .inline k => k.description

/-- The description of a classified schema. -/
def Classified.description : Classified → Option String
  | pojo p => p.description
  | stub s => s.description
  | plain m => m.description

/-- **Schemas keep their descriptions** when they are classified. -/
theorem description_of_classify {settings : Settings} {pending : Pending} {registry : Registry}
    {classified : Classified} {survey : Survey}
    (h : classify settings pending registry = .ok (classified, survey)) :
    classified.description = pending.schema.description := by
  obtain ⟨name, schema⟩ := pending
  cases schema with
  | ref target =>
    cases h
    rfl
  | inline k =>
    cases classifies_classify h with
    | enum hsimple hvalues henum =>
      obtain ⟨⟨values, rfl⟩, -⟩ := eq_enum_of_enumOf henum
      rfl
    | _ => rfl

theorem ClassTable.Becomes.description_eq {final : ClassTable} {before after : Classified}
    (h : final.Becomes before after) : after.description = before.description := by
  cases h with
  | @stub stub pojo hready hresolve =>
    obtain ⟨-, rfl⟩ := ClassTable.resolve_eq_ok_iff.mp hresolve
    exact stub.description_toPojo _
  | pojo pojo => rfl
  | plain plain => rfl

/-! ## Descriptions of members -/

/-- The type of a direct reference is the reference. -/
theorem type_mapSchema_of_directTarget? {settings : Settings} {owner : PojoName} {member : String}
    {registry : Registry} {schema : Schema} {target : String}
    (h : schema.directTarget? = some target) :
    (mapSchema settings owner member registry schema).type
      = .object (settings.referenceName target) := by
  cases schema with
  | ref reference =>
    cases h
    rw [mapSchema_ref]
    rfl
  | inline k =>
    have hreference : k.singleReference? = some target := h
    have hform : k.form = .reference target := by rw [Keywords.form, hreference]
    rw [mapSchema_inline, hform]
    rfl

theorem description_memberOf (settings : Settings) (owner : PojoName) (required : List String)
    (survey : Survey) (property : String × Schema) :
    (memberOf settings owner required survey property).1.description
      = property.2.description := by
  obtain ⟨name, schema⟩ := property
  cases schema <;> rfl

/-! ## Nearest descriptions -/

namespace Course

variable {settings : Settings} {isLoaded : String → Bool} {documents : List Document}
  (course : Course settings isLoaded documents)

/-- The type that is generated under the name to which a type is a reference. -/
def pojoAt? (type : DataType) : Option Pojo :=
  type.objectName?.bind fun name => course.pojos.find? (·.name.isSame name)

/-- The way of a reference: the plain types that are put in its place one after the other, and the
type in which it ends. Where they run into a circle, the reference stays as it is. -/
inductive GoesThrough (type : DataType) : (path : List PlainMember) → DataType → Prop where
  | ends {path : List PlainMember} {final : DataType}
      (h : LeadsTo course.plains type path final) : GoesThrough type path final
  | circle (h : ∀ path final, ¬ LeadsTo course.plains type path final) : GoesThrough type [] type

/-- The description of a member with the given one of its own, or the first description on its
way: that of a plain type, or else that of the generated type in which it ends. -/
def nearest (own : Option String) (path : List PlainMember) (final : DataType) : Option String :=
  own <|> path.findSome? (·.description) <|> (course.pojoAt? final).bind (·.description)

/-- The first description on the way of a member stands behind a plain type without one, so that
the member has another description in its place, or none. -/
def PassesOver (own : Option String) (path : List PlainMember) (final : DataType) : Prop :=
  own = none ∧ path.head?.bind (·.description) = none
    ∧ ∃ text, path.findSome? (·.description) = some text
      ∧ (course.pojoAt? final).bind (·.description) ≠ some text

variable {course}

/-- What a member gets is the nearest description if none is passed over. -/
theorem eq_nearest_iff {own : Option String} {path : List PlainMember} {final : DataType} :
    (own <|> path.head?.bind (·.description) <|> (course.pojoAt? final).bind (·.description))
        = course.nearest own path final
      ↔ ¬ course.PassesOver own path final := by
  rw [nearest, PassesOver]
  cases own with
  | some text => simp
  | none =>
    cases path with
    | nil => simp
    | cons first rest =>
      cases hfirst : first.description with
      | some text => simp [hfirst]
      | none => cases hrest : rest.findSome? (·.description) <;> simp [hfirst, hrest]

theorem exists_goesThrough (type : DataType) :
    ∃ path final, course.GoesThrough type path final := by
  by_cases hends : ∃ path final, LeadsTo course.plains type path final
  · obtain ⟨path, final, hleads⟩ := hends
    exact ⟨path, final, .ends hleads⟩
  · exact ⟨[], type, .circle fun path final hleads => hends ⟨path, final, hleads⟩⟩

/-- Once plain types are in their places, members get the descriptions of generated types. -/
theorem description_revision (member : Member) {replaced : Member}
    (h : (Revision.sequence Revision.substitute (replacementsOf settings.referenceInlining
      course.final.entries)).member member = replaced) :
    (course.revision.member member).description
      = (replaced.description <|> (course.pojoAt? replaced.type).bind (·.description)) := by
  have hdescribed : describedTypes course.pojos = describedTypes (PojoSet.ofResolved
      settings.referenceInlining course.final.entries).pojos := by
    rw [pojos, pojos_describe, describedTypes_revise (name_describeAll _)]
  change ((Revision.sequence Revision.describe (describedTypes (PojoSet.ofResolved
    settings.referenceInlining course.final.entries).pojos)).member
      ((Revision.sequence Revision.substitute (replacementsOf settings.referenceInlining
        course.final.entries)).member member)).description = _
  rw [h, ← hdescribed, Revision.description_sequence_describe, pojoAt?]
  simp only [find?_describedTypes course.nodup_keys_pojos, Option.bind_assoc]

/-- **What becomes of a member that goes a way.** -/
theorem GoesThrough.member_revision (hsimple : settings.referenceInlining = .simple)
    {member : Member} (hleaf : member.type.IsLeaf) {path : List PlainMember} {final : DataType}
    (h : course.GoesThrough member.type path final) :
    (course.revision.member member).type = final.rename settings.mapName
      ∧ (course.revision.member member).description
        = (member.description <|> path.head?.bind (·.description)
          <|> (course.pojoAt? final).bind (·.description)) := by
  have hreplacements : replacementsOf settings.referenceInlining course.final.entries
      = Replacement.ofPlains course.plains := by
    rw [hsimple]
    rfl
  rw [type_revision_member]
  cases h with
  | ends h =>
    refine ⟨type_revision_of_leadsTo hsimple hleaf h, ?_⟩
    have hmember := h.member_substitute course.nodup_keys_plains hleaf course.isLeaf_of_mem_plains
    rw [course.description_revision member (hreplacements ▸ hmember)]
    simp [Option.or_assoc]
  | circle h =>
    have hmember := member_substitute_of_not_leadsTo course.nodup_keys_plains hleaf
      fun _ _ => h _
    constructor
    · rw [revision, Revision.type_ofEntries_eq, hreplacements,
        substituteAll_of_not_leadsTo course.nodup_keys_plains hleaf h]
    · rw [course.description_revision member (hreplacements ▸ hmember)]
      simp

/-- What the visited schemas become has their names and their descriptions. -/
theorem exists_schema_of_mem_entries {resolved : Resolved} (h : resolved ∈ course.final.entries) :
    ∃ schema ∈ course.queue, schema.name = resolved.name
      ∧ resolved.entry.description = schema.schema.description := by
  obtain ⟨visit, hvisit, hbecomes⟩ := course.exists_becomes_of_mem h
  have hvalid := course.valid visit hvisit
  refine ⟨visit.pending, List.mem_map_of_mem hvisit, ?_, ?_⟩
  · rw [← Resolved.name_entry, hbecomes.name_eq]
    exact (name_of_classify hvalid).symm
  · rw [hbecomes.description_eq]
    exact description_of_classify hvalid

/-- **Plain types and generated types have the descriptions of their schemas.** -/
theorem exists_schema_of_mem_pojos {pojo : Pojo} (h : pojo ∈ course.pojos) :
    ∃ schema ∈ course.queue,
      schema.name = pojo.name ∧ pojo.description = schema.schema.description := by
  obtain ⟨r, hrename, hpojos⟩ := course.exists_pojos_eq
  rw [hpojos] at h
  obtain ⟨kept, hkept, rfl⟩ := List.mem_map.mp h
  rw [Pojo.name_revise, hrename, Pojo.description_revise]
  rcases mem_keptPojos_iff.mp hkept with hentry | ⟨plain, hentry, rfl, -⟩ <;>
    exact exists_schema_of_mem_entries hentry

end Course

/-! ## Runs -/

/-- **When a member has the nearest description.** In a run that succeeds and puts plain types in
place of references, each member of an object, however deep the object is embedded, is what becomes
of a property of some schema. If the property is a direct reference, the member has the type in
which the way of the reference ends. It has its own description, or else that of the first plain
type on the way, or else that of the generated type in which the way ends. This is the nearest
description if and only if none is passed over. Plain types and generated types have the
descriptions of their schemas. -/
theorem nearest_description_iff {settings : Settings} {isLoaded : String → Bool}
    {documents : List Document} {set : PojoSet} (hsimple : settings.referenceInlining = .simple)
    (h : (mapDocuments settings isLoaded documents).2 = .ok set) :
    ∃ course : Course settings isLoaded documents, course.Makes set
      ∧ (∀ pojo ∈ set.pojos, ∀ object, pojo = .object object ∨ pojo.Embeds object →
        ∀ member ∈ object.members, ∃ schema property, course.MakesMember schema property member)
      ∧ (∀ schema property member, course.MakesMember schema property member →
        ∀ target, property.2.directTarget? = some target →
          ∃ path final, course.GoesThrough (.object (settings.referenceName target)) path final
            ∧ member.type = final.rename settings.mapName
            ∧ member.description = (property.2.description <|> path.head?.bind (·.description)
              <|> (course.pojoAt? final).bind (·.description))
            ∧ (member.description = course.nearest property.2.description path final
              ↔ ¬ course.PassesOver property.2.description path final))
      ∧ (∀ plain ∈ course.plains, ∃ schema ∈ course.queue,
        schema.name = plain.name ∧ plain.description = schema.schema.description)
      ∧ ∀ pojo ∈ course.pojos, ∃ schema ∈ course.queue,
        schema.name = pojo.name ∧ pojo.description = schema.schema.description := by
  obtain ⟨course, hmakes⟩ := exists_course h
  refine ⟨course, hmakes, fun pojo hpojo object hobject member hmember => ?_, ?_,
    fun plain hplain => ?_, fun pojo => Course.exists_schema_of_mem_pojos⟩
  · exact Course.exists_makesMember hmakes (copiesAgree_mapDocuments h) hpojo hobject hmember
  · rintro schema property member ⟨-, k, survey, -, -, rfl⟩ target htarget
    generalize hdeclared : (memberOf settings schema.name k.required survey property).1 = declared
    have htype : declared.type = .object (settings.referenceName target) := by
      rw [← hdeclared]
      exact type_mapSchema_of_directTarget? htarget
    have hown : declared.description = property.2.description := by
      rw [← hdeclared, description_memberOf]
    obtain ⟨path, final, hway⟩ :=
      course.exists_goesThrough (.object (settings.referenceName target))
    have hleaf : declared.type.IsLeaf := by
      rw [htype]
      trivial
    obtain ⟨hfinal, hdescription⟩ := Course.GoesThrough.member_revision hsimple hleaf (htype ▸ hway)
    rw [hown] at hdescription
    refine ⟨path, final, hway, hfinal, hdescription, ?_⟩
    rw [hdescription]
    exact Course.eq_nearest_iff
  · exact Course.exists_schema_of_mem_entries (mem_plainMembers_iff.mp hplain)

/-- Pets with a code, the schema of which is a reference to that of codes, and a tag, which is one
of these. -/
def codedPets : Document :=
  .ofSchemas
    [("Code", .inline { types := some (.single .string), description := some "A short code" }),
      ("PetCode", .ref "#/components/schemas/Code"),
      ("Pet", .inline { properties := [("code", .ref "#/components/schemas/PetCode"),
        ("tag", .ref "#/components/schemas/Code")] })]

/-- **A description is passed over**: the chain of the code leads through a plain type without a
description to one that has it, but the member has none. The tag, which refers to the latter at
once, has it. -/
theorem farther_description_lost :
    ∃ set, (mapDocuments { referenceInlining := .simple } (fun _ => false) [codedPets]).2 = .ok set
      ∧ (∃ object, .object object ∈ set.pojos
        ∧ object.members.map (fun member => (member.name, member.type, member.description))
          = [("code", .scalar (.string .plain), none),
            ("tag", .scalar (.string .plain), some "A short code")])
      ∧ ∃ course : Course { referenceInlining := .simple } (fun _ => false) [codedPets],
        course.Makes set ∧ ∃ path final, course.GoesThrough (.object ⟨"PetCode", ""⟩) path final
          ∧ course.nearest none path final = some "A short code" := by
  obtain ⟨set, hset, hobjects⟩ := exists_ok_of_any_toOption
    (show ((mapDocuments { referenceInlining := .simple } (fun _ => false)
        [codedPets]).2.toOption.any fun set =>
      (set.pojos.filterMap (·.object?)).any fun object =>
        object.members.map (fun member => (member.name, member.type, member.description))
          == [("code", .scalar (.string .plain), none),
            ("tag", .scalar (.string .plain), some "A short code")]) = true by decide +kernel)
  obtain ⟨object, hobject, hmembers⟩ := exists_object_of_any hobjects
  obtain ⟨course, hmakes⟩ := exists_course hset
  let code : PlainMember :=
    ⟨⟨"Code", ""⟩, some "A short code", .scalar (.string .plain), .notNullable⟩
  let petCode : PlainMember := ⟨⟨"PetCode", ""⟩, none, .object ⟨"Code", ""⟩, .notNullable⟩
  obtain ⟨resolved, hresolved, hplains⟩ := exists_ok_of_any_toOption
    (show ((resolveDocuments { referenceInlining := .simple } (fun _ => false)
        [codedPets]).toOption.any fun resolved =>
      plainMembers resolved.2.entries == [code, petCode]) = true by decide +kernel)
  obtain ⟨warnings, -, hcourse⟩ := course.resolveDocuments_eq
  obtain rfl := Except.ok.inj (hcourse.symm.trans hresolved)
  have hleads : LeadsTo [code, petCode] (.object ⟨"PetCode", ""⟩) [petCode, code] code.type :=
    .there (by decide +kernel) (.there (by decide +kernel) (.here rfl))
  have hcourse : course.plains = [code, petCode] := beq_iff_eq.mp hplains
  exact ⟨set, hset, ⟨object, hobject, beq_iff_eq.mp hmembers⟩, course, hmakes, _, _,
    .ends (hcourse ▸ hleads), rfl⟩

/-- The members of pets are those of properties, and each of them has the nearest description if and
only if none is passed over on its way. -/
theorem nearest_description_of_pets :
    ∃ set, (mapDocuments { referenceInlining := .simple } (fun _ => false) [codedPets]).2 = .ok set
      ∧ ∃ (course : Course { referenceInlining := .simple } (fun _ => false) [codedPets])
        (object : ObjectPojo), .object object ∈ set.pojos
          ∧ object.members.map (·.description) = [none, some "A short code"]
          ∧ ∀ member ∈ object.members, ∃ schema property,
            course.MakesMember schema property member
              ∧ ∀ target, property.2.directTarget? = some target → ∃ path final,
                course.GoesThrough (.object (Settings.referenceName
                    { referenceInlining := .simple } target)) path final
                  ∧ (member.description = course.nearest property.2.description path final
                    ↔ ¬ course.PassesOver property.2.description path final) := by
  obtain ⟨set, hset, hobjects⟩ := exists_ok_of_any_toOption
    (show ((mapDocuments { referenceInlining := .simple } (fun _ => false)
        [codedPets]).2.toOption.any fun set =>
      (set.pojos.filterMap (·.object?)).any fun object =>
        object.members.map (·.description) == [none, some "A short code"]) = true
      by decide +kernel)
  obtain ⟨object, hobject, hdescriptions⟩ := exists_object_of_any hobjects
  obtain ⟨course, -, hall, hways, -⟩ := nearest_description_iff rfl hset
  refine ⟨set, hset, course, object, hobject, beq_iff_eq.mp hdescriptions,
    fun member hmember => ?_⟩
  obtain ⟨schema, property, hmakes⟩ := hall _ hobject object (.inl rfl) member hmember
  refine ⟨schema, property, hmakes, fun target htarget => ?_⟩
  obtain ⟨path, final, hway, -, -, hiff⟩ := hways schema property member hmakes target htarget
  exact ⟨path, final, hway, hiff⟩

end PojoGraph
