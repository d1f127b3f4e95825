import PojoGraph.Proofs.Run.MemberStates
import PojoGraph.Proofs.Run.Plains

/-!
# Further properties

What an object says of properties that it does not declare comes from its schema alone: the type
of such properties, and the names of those that are required. A type that no rule recognizes is not
given to them when the schema is classified, but a reference to a plain type is, and may become one
later. A required name is left out where the schema itself declares it, but not where a branch
does.

## Main definitions

* `Course.GivesAdditional` — the type that a schema gives to further properties.

## Main statements

* `Course.isUnmapped_revision_iff` — when a type becomes one that no rule recognizes.
* `additional_unmapped_iff` — when further properties of a final object have no certain type.
* `required_additional_undeclared_iff` — when no member of a final object has a name that is
  required of further properties.
-/

namespace PojoGraph

/-! ## Types that no rule recognizes -/

@[simp] theorem DataType.isUnmapped_rename (f : PojoName → PojoName) (type : DataType) :
    (type.rename f).isUnmapped = type.isUnmapped := by
  cases type with
  | leaf leaf traits => cases leaf <;> rfl
  | list item traits => rfl
  | map key value traits => rfl

/-- Further properties are not given a type that no rule recognizes. -/
theorem isUnmapped_of_additionalOf {settings : Settings} {owner : PojoName} {k : Keywords Schema}
    {survey : Survey} {given : DataType}
    (h : (additionalOf settings owner k survey).1 = .allowed given) : given.isUnmapped = false := by
  rw [additionalOf] at h
  split at h
  · cases h
  · cases h
  · cases h
    rfl
  · split at h
    · cases h
      rfl
    · dsimp only at h
      rw [AdditionalProperties.ofType] at h
      split at h
      · cases h
        rfl
      · rename_i hmapped
        cases h
        simpa using hmapped

/-- **A type becomes one that no rule recognizes if and only if its chain of plain types ends in
one.** -/
theorem isUnmapped_substituteAll_iff {plains : List PlainMember}
    (hnodup : (plains.map (·.name.key)).Nodup) (hleaf : ∀ plain ∈ plains, plain.type.IsLeaf)
    {type : DataType} (hmapped : type.isUnmapped = false) :
    (type.substituteAll (Replacement.ofPlains plains)).isUnmapped = true
      ↔ ∃ path final, LeadsTo plains type path final ∧ final.isUnmapped = true := by
  by_cases htype : type.IsLeaf
  · by_cases hends : ∃ path final, LeadsTo plains type path final
    · obtain ⟨path, final, hleads⟩ := hends
      rw [hleads.substituteAll_eq hnodup hleaf htype]
      refine ⟨fun hfinal => ⟨path, final, hleads, hfinal⟩, ?_⟩
      rintro ⟨path', final', hleads', hfinal⟩
      rwa [(hleads.unique hleads').2]
    · rw [substituteAll_of_not_leadsTo hnodup htype
        fun path final hleads => hends ⟨path, final, hleads⟩, hmapped]
      refine ⟨fun h => (Bool.false_ne_true h).elim, ?_⟩
      rintro ⟨path, final, hleads, -⟩
      exact (hends ⟨path, final, hleads⟩).elim
  · -- Lists and maps stay such, and are no references.
    have hstays : (type.substituteAll (Replacement.ofPlains plains)).isUnmapped = false
        ∧ plainTarget? plains type = none := by
      cases type with
      | leaf leaf traits => exact (htype trivial).elim
      | list item traits => rw [substituteAll_list]; exact ⟨rfl, rfl⟩
      | map key value traits => rw [substituteAll_map]; exact ⟨rfl, rfl⟩
    rw [hstays.1]
    refine ⟨fun h => (Bool.false_ne_true h).elim, ?_⟩
    rintro ⟨path, final, hleads, hfinal⟩
    rw [← ((LeadsTo.here hstays.2).unique hleads).2, hmapped] at hfinal
    exact hfinal

/-! ## Final objects -/

namespace Course

variable {settings : Settings} {isLoaded : String → Bool} {documents : List Document}
  {course : Course settings isLoaded documents} {schema : Pending} {object : ObjectPojo}

/-- **When a type becomes one that no rule recognizes** in the final set. -/
theorem isUnmapped_revision_iff {type : DataType} (hmapped : type.isUnmapped = false) :
    (course.revision.type type).isUnmapped = true ↔ settings.referenceInlining = .simple
      ∧ ∃ path final, LeadsTo course.plains type path final ∧ final.isUnmapped = true := by
  rw [revision, Revision.type_ofEntries_eq, DataType.isUnmapped_rename]
  cases hinlining : settings.referenceInlining with
  | never => simp [replacementsOf, DataType.substituteAll, hmapped]
  | simple =>
    rw [and_iff_right rfl]
    exact isUnmapped_substituteAll_iff nodup_keys_plains isLeaf_of_mem_plains hmapped

/-- What a schema ends as follows its keywords, revised. -/
theorem EndsAs.exists_follows (h : course.EndsAs schema object) :
    ∃ (k : Keywords Schema) (original : ObjectPojo), original.Follows settings schema k
      ∧ object = original.revise course.revision := by
  obtain ⟨hschema, original, horiginal, hname, heq⟩ := h
  obtain ⟨visit, hvisit, k, hfollows⟩ := course.exists_follows_of_mem_entries horiginal
  obtain rfl : visit.pending = schema :=
    eq_of_name_eq (List.mem_map_of_mem hvisit) hschema (hfollows.name.symm.trans hname)
  exact ⟨k, original, hfollows, heq⟩

/-- Each object of a final set, at any depth, is what some schema ends as, or it is bare. -/
theorem exists_endsAs_or_isBare {set : PojoSet} (hmakes : course.Makes set)
    (hcopies : CopiesAgree set.pojos) {pojo : Pojo} (hpojo : pojo ∈ set.pojos)
    (hobject : pojo = .object object ∨ pojo.Embeds object) :
    (∃ schema, course.EndsAs schema object) ∨ object.IsBare := by
  rcases hobject with rfl | hembeds
  · exact .inl (exists_endsAs hmakes hpojo)
  · obtain ⟨top, htop, hbranch⟩ := hcopies.exists_asBranch hpojo hembeds
    rcases Pojo.eq_object_or_isBare_of_asBranch hbranch with rfl | hbare
    · exact .inl (exists_endsAs hmakes htop)
    · exact .inr hbare

/-! ## The type of further properties -/

variable (course) in
/-- The schema ends as the object, gives its further properties the type `given`, and the object
has for them what becomes of it. -/
structure GivesAdditional (schema : Pending) (object : ObjectPojo) (given : DataType) : Prop where
  endsAs : course.EndsAs schema object
  gives : ∃ k survey, schema.schema = .inline k
    ∧ (additionalOf settings schema.name k survey).1 = .allowed given
  becomes : object.additional = .allowed (course.revision.type given)

theorem GivesAdditional.isUnmapped_iff {given : DataType}
    (h : course.GivesAdditional schema object given) :
    (course.revision.type given).isUnmapped = true ↔ settings.referenceInlining = .simple
      ∧ ∃ path final, LeadsTo course.plains given path final ∧ final.isUnmapped = true := by
  obtain ⟨k, survey, -, hgiven⟩ := h.gives
  exact isUnmapped_revision_iff (isUnmapped_of_additionalOf hgiven)

theorem EndsAs.exists_givesAdditional (h : course.EndsAs schema object) {type : DataType}
    (htype : object.additional = .allowed type) :
    ∃ given, course.GivesAdditional schema object given := by
  obtain ⟨k, original, hfollows, rfl⟩ := h.exists_follows
  obtain ⟨survey, hadditional⟩ := hfollows.additional
  have hrevised : (original.revise course.revision).additional
      = original.additional.map course.revision.type := by
    rw [ObjectPojo.revise_eq]
  cases hgiven : original.additional with
  | notAllowed =>
    rw [hrevised, hgiven] at htype
    cases htype
  | allowed given =>
    refine ⟨given, h, ⟨k, survey, hfollows.schema_eq, hadditional ▸ hgiven⟩, ?_⟩
    rw [hrevised, hgiven]
    rfl

end Course

section

variable {settings : Settings} {isLoaded : String → Bool} {documents : List Document}
  {set : PojoSet}

/-- **When further properties have no certain type.** In a run that succeeds, take an object of the
final set, at any depth, that allows further properties. Their type is one that no rule recognizes
if and only if plain types are put in place of references, and the schema that ends as the object
gave them a reference whose chain of plain types ends in such a type. -/
theorem additional_unmapped_iff (h : (mapDocuments settings isLoaded documents).2 = .ok set) :
    ∃ course : Course settings isLoaded documents, course.Makes set
      ∧ ∀ pojo ∈ set.pojos, ∀ object, pojo = .object object ∨ pojo.Embeds object →
        ∀ type, object.additional = .allowed type →
          (type.isUnmapped = true ↔ settings.referenceInlining = .simple
            ∧ ∃ schema given path final, course.GivesAdditional schema object given
              ∧ LeadsTo course.plains given path final ∧ final.isUnmapped = true) := by
  obtain ⟨course, hmakes⟩ := exists_course h
  refine ⟨course, hmakes, fun pojo hpojo object hobject type htype => ⟨fun hunmapped => ?_, ?_⟩⟩
  · rcases Course.exists_endsAs_or_isBare hmakes (copiesAgree_mapDocuments h) hpojo hobject with
      ⟨schema, hends⟩ | hbare
    · obtain ⟨given, hgives⟩ := hends.exists_givesAdditional htype
      obtain rfl := AdditionalProperties.allowed.inj (hgives.becomes.symm.trans htype)
      obtain ⟨hsimple, path, final, hleads, hfinal⟩ := hgives.isUnmapped_iff.mp hunmapped
      exact ⟨hsimple, schema, given, path, final, hgives, hleads, hfinal⟩
    · rcases hbare.additional with hnone | hfree
      · rw [hnone] at htype
        cases htype
      · rw [hfree] at htype
        cases htype
        cases hunmapped
  · rintro ⟨hsimple, schema, given, path, final, hgives, hleads, hfinal⟩
    obtain rfl := AdditionalProperties.allowed.inj (hgives.becomes.symm.trans htype)
    exact hgives.isUnmapped_iff.mpr ⟨hsimple, path, final, hleads, hfinal⟩

end

/-- Bags of values, which have a schema of their own. -/
def bags (value : Facets) : Document :=
  .ofSchemas
    [("Value", .inline { toFacets := value }),
      ("Bag", .inline
        { types := some (.single .object)
          additional := some (.schema (.ref "#/components/schemas/Value")) })]

/-- **A type that no rule recognizes comes back**: values of two types are mapped to none, and with
plain types put in place of references, this is what bags are said to hold. -/
theorem further_properties_unmapped :
    ∃ set, (mapDocuments {} (fun _ => false)
        [bags { types := some (.multiple [.string, .integer]) }]).2 = .ok set
      ∧ ∃ object, .object object ∈ set.pojos ∧ object.name.raw = "Bag"
        ∧ object.additional = .allowed .unmapped := by
  obtain ⟨set, hset, hobjects⟩ := exists_ok_of_any_toOption
    (show ((mapDocuments {} (fun _ => false)
        [bags { types := some (.multiple [.string, .integer]) }]).2.toOption.any fun set =>
      (set.pojos.filterMap (·.object?)).any fun object => object.name.raw == "Bag"
        && object.additional == .allowed .unmapped) = true by decide +kernel)
  obtain ⟨object, hobject, hbag⟩ := exists_object_of_any hobjects
  simp only [Bool.and_eq_true, beq_iff_eq] at hbag
  exact ⟨set, hset, object, hobject, hbag⟩

/-- Bags of strings hold strings, since no chain ends in a type that no rule recognizes. -/
theorem additional_unmapped_iff_for_bags :
    ∃ set, (mapDocuments {} (fun _ => false) [bags { types := some (.single .string) }]).2 = .ok set
      ∧ ∃ object, .object object ∈ set.pojos
        ∧ object.additional = .allowed (.scalar (.string .plain))
        ∧ ∃ course : Course {} (fun _ => false) [bags { types := some (.single .string) }],
          course.Makes set ∧ ¬ ∃ schema given path final, course.GivesAdditional schema object given
            ∧ LeadsTo course.plains given path final ∧ final.isUnmapped = true := by
  obtain ⟨set, hset, hobjects⟩ := exists_ok_of_any_toOption
    (show ((mapDocuments {} (fun _ => false)
        [bags { types := some (.single .string) }]).2.toOption.any fun set =>
      (set.pojos.filterMap (·.object?)).any fun object =>
        object.additional == .allowed (.scalar (.string .plain))) = true by decide +kernel)
  obtain ⟨object, hobject, hbag⟩ := exists_object_of_any hobjects
  have hstring := beq_iff_eq.mp hbag
  obtain ⟨course, hmakes, hiff⟩ := additional_unmapped_iff hset
  refine ⟨set, hset, object, hobject, hstring, course, hmakes, fun hleads => ?_⟩
  cases (hiff _ hobject object (.inl rfl) _ hstring).mpr ⟨rfl, hleads⟩

/-! ## Required names -/

/-- The schema declares no name that it requires of further properties. -/
theorem Keywords.not_mem_keys_of_required {k : Keywords Schema} {name : String}
    (h : name ∈ k.requiredAdditional) : name ∉ Dictionary.keys k.properties := by
  intro hmem
  obtain ⟨property, hproperty, rfl⟩ := List.mem_map.mp hmem
  have hnone := (List.mem_filter.mp h).2
  rw [Bool.not_eq_true', List.any_eq_false] at hnone
  exact hnone property hproperty (beq_self_eq_true _)

section

variable {settings : Settings} {isLoaded : String → Bool} {documents : List Document}
  {set : PojoSet}

theorem Course.EndsAs.names_members {course : Course settings isLoaded documents}
    {schema : Pending} {object : ObjectPojo} (h : course.EndsAs schema object) :
    ∃ k, schema.schema = .inline k ∧ object.requiredAdditional = k.requiredAdditional
      ∧ object.members.map (·.name)
        = (object.allOf.getD []).flatMap (·.members.map (·.name))
          ++ Dictionary.keys k.properties := by
  obtain ⟨k, original, hfollows, rfl⟩ := h.exists_follows
  obtain ⟨-, k', declared, hschema, hdeclares, hmembers⟩ :=
    hfollows.flattens.revise course.revision
  obtain rfl : k = k' := Schema.inline.inj (hfollows.schema_eq.symm.trans hschema)
  refine ⟨k, hschema, ?_, ?_⟩
  · rw [ObjectPojo.revise_eq]
    exact hfollows.requiredAdditional
  · have hnames : ∀ member : Member,
        (((Revision.rename id).andThen course.revision).member member).name = member.name := by
      rw [Revision.rename_id_andThen]
      exact fun member => (Course.keepsMembers_revision member).1
    rw [hmembers, List.map_append, List.map_flatMap, List.map_map, ← hdeclares.names]
    exact congrArg _ (List.map_congr_left fun member _ => hnames member)

/-- **When no member has a name that is required of further properties.** In a run that succeeds,
an object of the final set, at any depth, requires of further properties the names that its schema
requires without declaring them. No member of the object has one of these names if and only if no
member of an `allOf` branch has. -/
theorem required_additional_undeclared_iff
    (h : (mapDocuments settings isLoaded documents).2 = .ok set) :
    ∃ course : Course settings isLoaded documents, course.Makes set
      ∧ ∀ pojo ∈ set.pojos, ∀ object, pojo = .object object ∨ pojo.Embeds object →
        (object.requiredAdditional = [] ∨ ∃ schema k, course.EndsAs schema object
          ∧ schema.schema = .inline k ∧ object.requiredAdditional = k.requiredAdditional)
        ∧ ((∀ name ∈ object.requiredAdditional, name ∉ object.members.map (·.name))
          ↔ ∀ name ∈ object.requiredAdditional, ∀ branch ∈ object.allOf.getD [],
            name ∉ branch.members.map (·.name)) := by
  obtain ⟨course, hmakes⟩ := exists_course h
  refine ⟨course, hmakes, fun pojo hpojo object hobject => ?_⟩
  rcases Course.exists_endsAs_or_isBare hmakes (copiesAgree_mapDocuments h) hpojo hobject with
    ⟨schema, hends⟩ | hbare
  · obtain ⟨k, hschema, hrequired, hnames⟩ := hends.names_members
    refine ⟨.inr ⟨schema, k, hends, hschema, hrequired⟩, ?_⟩
    rw [hrequired, hnames]
    refine forall₂_congr fun name hname => ?_
    rw [List.mem_append, not_or, and_iff_left (Keywords.not_mem_keys_of_required hname),
      List.mem_flatMap]
    simp
  · rw [hbare.requiredAdditional]
    simp

end

/-- Users, which have the id that their base declares and require a property of the given name. -/
def identifiedUsers (required : String) : Document :=
  .ofSchemas
    [("Base", .inline { properties := [("id", .inline { types := some (.single .string) })] }),
      ("User", .inline { allOf := [.ref "#/components/schemas/Base"], required := [required] })]

/-- **A member is required twice over**: the id of users is among their members, and among the names
that are required of further properties. -/
theorem member_required_of_further_properties :
    ∃ set, (mapDocuments {} (fun _ => false) [identifiedUsers "id"]).2 = .ok set
      ∧ ∃ object, .object object ∈ set.pojos ∧ object.name.raw = "User"
        ∧ object.requiredAdditional = ["id"] ∧ object.members.map (·.name) = ["id"] := by
  obtain ⟨set, hset, hobjects⟩ := exists_ok_of_any_toOption
    (show ((mapDocuments {} (fun _ => false) [identifiedUsers "id"]).2.toOption.any fun set =>
      (set.pojos.filterMap (·.object?)).any fun object => object.name.raw == "User"
        && (object.requiredAdditional == ["id"] && object.members.map (·.name) == ["id"])) = true
      by decide +kernel)
  obtain ⟨object, hobject, huser⟩ := exists_object_of_any hobjects
  simp only [Bool.and_eq_true, beq_iff_eq] at huser
  exact ⟨set, hset, object, hobject, huser⟩

/-- A role, which the base does not declare, is required of further properties alone. -/
theorem required_additional_undeclared_iff_for_users :
    ∃ set, (mapDocuments {} (fun _ => false) [identifiedUsers "role"]).2 = .ok set
      ∧ ∃ object, .object object ∈ set.pojos ∧ object.requiredAdditional = ["role"]
        ∧ object.members.map (·.name) = ["id"]
        ∧ ∀ name ∈ object.requiredAdditional, ∀ branch ∈ object.allOf.getD [],
          name ∉ branch.members.map (·.name) := by
  obtain ⟨set, hset, hobjects⟩ := exists_ok_of_any_toOption
    (show ((mapDocuments {} (fun _ => false) [identifiedUsers "role"]).2.toOption.any fun set =>
      (set.pojos.filterMap (·.object?)).any fun object => object.requiredAdditional == ["role"]
        && object.members.map (·.name) == ["id"]) = true by decide +kernel)
  obtain ⟨object, hobject, huser⟩ := exists_object_of_any hobjects
  simp only [Bool.and_eq_true, beq_iff_eq] at huser
  obtain ⟨hrequired, hmembers⟩ := huser
  obtain ⟨course, -, hundeclared⟩ := required_additional_undeclared_iff hset
  refine ⟨set, hset, object, hobject, hrequired, hmembers,
    (hundeclared _ hobject object (.inl rfl)).2.mp ?_⟩
  rw [hrequired, hmembers]
  decide

end PojoGraph
