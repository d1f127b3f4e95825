import PojoGraph.Proofs.Run.Flattening

/-!
# States of members

Whether a member must be present and whether it may be null is decided when its schema is
classified, for plain objects and for compositions alike. From then on members are copied from
branches, their references are replaced, descriptions are attached to them and their types are
renamed; their names and their states stay as they were.

## Main definitions

* `Keywords.AdmitsNull` — the ways in which a schema admits null.
* `MemberTraits`, `Keywords.traitsOf` — the name and the state of a member, and what a schema says
  about them.
* `Course.EndsAs` — the object of the final set that a schema ends as.

## Main statements

* `Keywords.isNullable_iff` — a schema is nullable if it admits null in one of these ways.
* `Course.EndsAs.traits` — the traits of all members of a final object.
* `member_states_survive` — members keep their names and states.
-/

namespace PojoGraph

/-! ## Schemas -/

/-- Null is among the values: by `nullable`, by a list of types that has null in it, by an enum
value, or by a branch of a union. -/
inductive Keywords.AdmitsNull (k : Keywords Schema) : Prop where
  | nullable (h : k.nullable = some true)
  | types {types : List SchemaType} (htypes : k.types = some (.multiple types))
      (hnull : .null ∈ types)
  | enum {value : Json} (hvalue : value ∈ k.enumValues) (hnull : value.isNull = true)
  | branch {branch : Schema} (hbranch : branch ∈ k.oneOf ∨ branch ∈ k.anyOf)
      (hnull : branch.isNullType = true)

theorem Facets.listsNull_iff {facets : Facets} : facets.listsNull = true
    ↔ ∃ types, facets.types = some (.multiple types) ∧ .null ∈ types := by
  rw [listsNull]
  split
  · rename_i types htypes
    simp [htypes]
  · rename_i hnone
    constructor
    · intro h
      cases h
    · rintro ⟨types, htypes, -⟩
      exact absurd htypes (hnone types)

/-- **A schema is nullable if and only if null is among its values.** -/
theorem Keywords.isNullable_iff {k : Keywords Schema} : k.isNullable = true ↔ k.AdmitsNull := by
  simp only [isNullable, hasNullBranch, Bool.or_eq_true, Facets.listsNull_iff, List.any_eq_true,
    List.mem_append]
  constructor
  · rintro (((h | ⟨types, htypes, hnull⟩) | ⟨value, hvalue, hnull⟩) | ⟨branch, hbranch, hnull⟩)
    · exact .nullable (by simpa [Option.getD_eq_iff] using h)
    · exact .types htypes hnull
    · exact .enum hvalue hnull
    · exact .branch hbranch hnull
  · rintro (h | ⟨htypes, hnull⟩ | ⟨hvalue, hnull⟩ | ⟨hbranch, hnull⟩)
    · exact .inl (.inl (.inl (by simp [h])))
    · exact .inl (.inl (.inr ⟨_, htypes, hnull⟩))
    · exact .inl (.inr ⟨_, hvalue, hnull⟩)
    · exact .inr ⟨_, hbranch, hnull⟩

/-! ## Traits -/

/-- Where a list has different values under a function, each element is singled out by its own. -/
theorem filter_eq_singleton_of_nodup_map {α β : Type} [BEq β] [LawfulBEq β] {f : α → β}
    {as : List α} (hnodup : (as.map f).Nodup) {a : α} (ha : a ∈ as) :
    as.filter (f · == f a) = [a] := by
  induction as with
  | nil => cases ha
  | cons first rest ih =>
    rw [List.map_cons, List.nodup_cons] at hnodup
    obtain ⟨hnew, hrest⟩ := hnodup
    rcases List.mem_cons.mp ha with rfl | ha
    · have hnone : rest.filter (f · == f a) = [] := by
        rw [List.filter_eq_nil_iff]
        intro other hother heq
        exact hnew (List.mem_map.mpr ⟨other, hother, by simpa using heq⟩)
      rw [List.filter_cons_of_pos (by simp), hnone]
    · have hne : f first ≠ f a := fun heq => hnew (heq ▸ List.mem_map_of_mem ha)
      rw [List.filter_cons_of_neg (by simpa using hne), ih hrest ha]

/-- What stays of a member while types change: its name and its state. -/
structure MemberTraits where
  name : String
  necessity : Necessity
  nullability : Nullability
  deriving DecidableEq, Repr

/-- The name and the state of the member. -/
def Member.traits (member : Member) : MemberTraits :=
  ⟨member.name, member.necessity, member.nullability⟩

/-- Whether null is among the values where the schema stands. A reference does not say. -/
def Schema.nullability : Schema → Nullability
  | .ref _ => .notNullable
  | .inline k => .ofBool k.isNullable

/-- What the schema says about the member of a declared property. -/
def Keywords.traitsOf (k : Keywords Schema) (property : String × Schema) : MemberTraits :=
  ⟨property.1, .ofBool (k.required.contains property.1), property.2.nullability⟩

theorem Necessity.ofBool_eq_required_iff {isRequired : Bool} :
    Necessity.ofBool isRequired = .required ↔ isRequired = true := by
  cases isRequired <;> simp [ofBool]

theorem Nullability.ofBool_eq_nullable_iff {isNullable : Bool} :
    Nullability.ofBool isNullable = .nullable ↔ isNullable = true := by
  cases isNullable <;> simp [ofBool]

theorem traits_memberOf (settings : Settings) (owner : PojoName) (k : Keywords Schema)
    (survey : Survey) (property : String × Schema) :
    (memberOf settings owner k.required survey property).1.traits = k.traitsOf property := by
  obtain ⟨name, schema⟩ := property
  cases schema <;> rfl

/-- Members have the traits that the schema gives their properties. -/
theorem Keywords.Declares.traits {settings : Settings} {owner : PojoName} {k : Keywords Schema}
    {members : List Member} (h : k.Declares settings owner members) :
    members.map Member.traits = k.properties.map k.traitsOf := by
  rw [eq_comm, ← List.forall₂_eq_eq_eq, List.forall₂_map_left_iff, List.forall₂_map_right_iff]
  refine h.imp ?_
  rintro property member ⟨survey, rfl⟩
  exact (traits_memberOf settings owner k survey property).symm

theorem Revision.KeepsMembers.traits {r : Revision} (h : r.KeepsMembers) (member : Member) :
    (r.member member).traits = member.traits := by
  obtain ⟨hname, hnecessity, hnullability⟩ := h member
  simp only [Member.traits, hname, hnecessity, hnullability]

/-- The members of a flat object have the traits of the members of its branches, and then those
that its schema gives its own. -/
theorem ObjectPojo.Flattens.traits {settings : Settings} {schema : Pending} {r : Revision}
    {object : ObjectPojo} (h : object.Flattens settings schema r) (hkeeps : r.KeepsMembers) :
    ∃ k, schema.schema = .inline k ∧ object.members.map Member.traits
      = (object.allOf.getD []).flatMap (·.members.map Member.traits)
        ++ k.properties.map k.traitsOf := by
  obtain ⟨-, k, declared, hschema, hdeclares, hmembers⟩ := h
  refine ⟨k, hschema, ?_⟩
  have hown : (declared.map r.member).map Member.traits = declared.map Member.traits := by
    rw [List.map_map]
    exact List.map_congr_left fun member _ => hkeeps.traits member
  rw [hmembers, List.map_append, List.map_flatMap, hown, hdeclares.traits]

/-! ## Runs -/

namespace Course

variable {settings : Settings} {isLoaded : String → Bool} {documents : List Document}

/-- The schema ends as the object: it is resolved to one under its own name, and this is what
becomes of it in the final set. -/
structure EndsAs (course : Course settings isLoaded documents) (schema : Pending)
    (object : ObjectPojo) : Prop where
  mem_queue : schema ∈ course.queue
  exists_resolved : ∃ resolved, .pojo (.object resolved) ∈ course.final.entries
    ∧ resolved.name = schema.name ∧ object = resolved.revise course.revision

variable {course : Course settings isLoaded documents} {schema : Pending} {object : ObjectPojo}

/-- No two schemas of a run have one name. -/
theorem eq_of_name_eq {other : Pending} (hschema : schema ∈ course.queue)
    (hother : other ∈ course.queue) (hname : schema.name = other.name) : schema = other :=
  List.inj_on_of_nodup_map course.nodup_keys_queue hschema hother (congrArg PojoName.key hname)

theorem keepsMembers_revision : course.revision.KeepsMembers :=
  Revision.keepsMembers_ofEntries settings course.final.entries

namespace EndsAs

theorem mem_pojos (h : course.EndsAs schema object) {set : PojoSet} (hmakes : course.Makes set) :
    .object object ∈ set.pojos := by
  obtain ⟨-, resolved, hresolved, -, rfl⟩ := h
  rw [hmakes.pojos_eq_revise]
  exact List.mem_map.mpr ⟨.object resolved, List.mem_filterMap.mpr ⟨_, hresolved, rfl⟩, rfl⟩

/-- **A schema ends as a flat object**, whose members have different names. -/
theorem flattens (h : course.EndsAs schema object)
    (hdistinct : ∀ document ∈ documents, document.HasDistinctProperties) :
    (object.members.map (·.name)).Nodup
      ∧ object.Flattens settings schema course.revision := by
  obtain ⟨hschema, resolved, hresolved, hname, rfl⟩ := h
  obtain ⟨hnodup, other, hother, hflat⟩ := course.flattens_of_mem_entries hdistinct hresolved
  obtain rfl : other = schema := eq_of_name_eq hother hschema (hflat.1.symm.trans hname)
  have hrevised := hflat.revise course.revision
  rw [Revision.rename_id_andThen] at hrevised
  refine ⟨?_, hrevised⟩
  have hnames : (fun member : Member => member.name) ∘ course.revision.member = (·.name) :=
    funext fun member => (keepsMembers_revision member).1
  rw [ObjectPojo.members_revise, List.map_map, hnames]
  exact hnodup

/-- **The traits of all members of a final object**: those of the members of its branches, and
then those that its schema gives its own. -/
theorem traits (h : course.EndsAs schema object)
    (hdistinct : ∀ document ∈ documents, document.HasDistinctProperties) :
    ∃ k, schema.schema = .inline k ∧ object.members.map Member.traits
      = (object.allOf.getD []).flatMap (·.members.map Member.traits)
        ++ k.properties.map k.traitsOf :=
  (h.flattens hdistinct).2.traits keepsMembers_revision

end EndsAs

/-- Each object of the final set is what some schema ends as. -/
theorem exists_endsAs {set : PojoSet} (hmakes : course.Makes set)
    (hobject : .object object ∈ set.pojos) : ∃ schema, course.EndsAs schema object := by
  rw [hmakes.pojos_eq_revise] at hobject
  obtain ⟨pojo, hpojo, hrevised⟩ := List.mem_map.mp hobject
  cases pojo with
  | object original =>
    obtain rfl := Pojo.object.inj hrevised
    have hentry := mem_entries_of_mem_keptPojos hpojo
    have hname : original.name ∈ course.final.entries.map (·.name) :=
      List.mem_map.mpr ⟨_, hentry, rfl⟩
    rw [names_entries] at hname
    obtain ⟨schema, hschema, hname⟩ := List.mem_map.mp hname
    exact ⟨schema, hschema, original, hentry, hname.symm, rfl⟩
  | _ => cases hrevised

end Course

section

variable {settings : Settings} {isLoaded : String → Bool} {documents : List Document}
  {set : PojoSet}

/-- **Members keep their names and states.** Take a run that succeeds, over documents in which no
schema declares a property twice. An object that a schema ends as has just one member for each
property that the schema declares. The member must be present if and only if the schema lists it
as required; where the property has a schema written in place, it may be null if and only if that
schema admits null. All further members are those of the `allOf` branches, with the names and
states that they have there. Each object of the set, at any depth, is what some schema ends as, if
it has any members. And what becomes of resolved types in the final set changes no name and no
state of a member. -/
theorem member_states_survive
    (hdistinct : ∀ document ∈ documents, document.HasDistinctProperties)
    (h : (mapDocuments settings isLoaded documents).2 = .ok set) :
    ∃ course : Course settings isLoaded documents, course.Makes set
      ∧ (∀ schema object, course.EndsAs schema object → .object object ∈ set.pojos
        ∧ ∃ k, schema.schema = .inline k
          ∧ (∀ property ∈ k.properties, ∃ member,
            object.members.filter (·.name == property.1) = [member]
              ∧ (member.necessity = .required ↔ property.1 ∈ k.required)
              ∧ ∀ inner, property.2 = .inline inner →
                (member.nullability = .nullable ↔ inner.AdmitsNull))
          ∧ object.members.map Member.traits
            = (object.allOf.getD []).flatMap (·.members.map Member.traits)
              ++ k.properties.map k.traitsOf)
      ∧ (∀ pojo ∈ set.pojos, ∀ object, pojo = .object object ∨ pojo.Embeds object →
        object.members = [] ∨ ∃ schema, course.EndsAs schema object)
      ∧ ∀ member, (course.revision.member member).traits = member.traits := by
  obtain ⟨course, hmakes⟩ := exists_course h
  refine ⟨course, hmakes, ?_, ?_, Course.keepsMembers_revision.traits⟩
  · intro schema object hends
    obtain ⟨k, hschema, htraits⟩ := hends.traits hdistinct
    refine ⟨hends.mem_pojos hmakes, k, hschema, fun property hproperty => ?_, htraits⟩
    -- The traits of the property are among those of the members; names single out the member.
    have hmem : k.traitsOf property ∈ object.members.map Member.traits := by
      rw [htraits]
      exact List.mem_append_right _ (List.mem_map_of_mem hproperty)
    obtain ⟨member, hmember, heq⟩ := List.mem_map.mp hmem
    obtain ⟨hname, hnecessity, hnullability⟩ : member.name = property.1
        ∧ member.necessity = .ofBool (k.required.contains property.1)
        ∧ member.nullability = property.2.nullability := by
      simpa [Member.traits, Keywords.traitsOf] using heq
    refine ⟨member, ?_, ?_, ?_⟩
    · rw [← hname]
      exact filter_eq_singleton_of_nodup_map (hends.flattens hdistinct).1 hmember
    · rw [hnecessity, Necessity.ofBool_eq_required_iff, List.contains_iff_mem]
    · rintro inner hinner
      rw [hnullability, hinner, Schema.nullability, Nullability.ofBool_eq_nullable_iff,
        Keywords.isNullable_iff]
  · rintro pojo hpojo object (rfl | hembeds)
    · exact .inr (Course.exists_endsAs hmakes hpojo)
    · obtain ⟨top, htop, hbranch⟩ := (copiesAgree_mapDocuments h).exists_asBranch hpojo hembeds
      rcases Pojo.eq_object_or_of_asBranch hbranch with rfl | ⟨hnone, -⟩
      · exact .inr (Course.exists_endsAs hmakes htop)
      · exact .inl hnone

end

/-- Owners, whose members are in all four states, and keepers, who are owners of pets. -/
def keepers : Document :=
  .ofSchemas
    [("Owner", .inline
        { required := ["id", "since"]
          properties :=
            [("id", .inline { types := some (.single .string) }),
              ("since", .inline { types := some (.multiple [.string, .null]) }),
              ("nickname", .inline { types := some (.single .string), nullable := some true }),
              ("address", .inline { types := some (.single .string) })] }),
      ("Keeper", .inline
        { allOf := [.ref "#/components/schemas/Owner"]
          required := ["pets"]
          properties := [("pets", .inline { types := some (.single .integer) })] })]

theorem hasDistinctProperties_keepers :
    ∀ document ∈ [keepers], document.HasDistinctProperties := by
  intro document hdocument entry hentry
  obtain rfl := List.mem_singleton.mp hdocument
  rcases List.mem_pair.mp hentry with rfl | rfl
  · refine Schema.HasDistinctProperties.inline_iff.mpr ⟨by decide, fun child hchild => ?_⟩
    simp [Keywords.children] at hchild
    rcases hchild with rfl | rfl | rfl | rfl <;> exact .ofFacets _
  · refine Schema.HasDistinctProperties.inline_iff.mpr ⟨by decide, fun child hchild => ?_⟩
    rcases List.mem_pair.mp hchild with rfl | rfl
    · exact .ofFacets _
    · exact .ref _

/-- Keepers have the members of owners in the states that they have there, and their own. -/
theorem member_states_survive_keepers :
    ∃ set, (mapDocuments {} (fun _ => false) [keepers]).2 = .ok set
      ∧ ∃ object, .object object ∈ set.pojos
        ∧ object.members.map (·.state) = [.requiredNotNullable, .requiredNullable, .tristate,
          .optionalNotNullable, .requiredNotNullable]
        ∧ ∃ (course : Course {} (fun _ => false) [keepers]) (schema : Pending),
          course.EndsAs schema object ∧ ∃ k, schema.schema = .inline k
            ∧ ∀ property ∈ k.properties, ∃ member,
              object.members.filter (·.name == property.1) = [member]
                ∧ (member.necessity = .required ↔ property.1 ∈ k.required) := by
  obtain ⟨set, hset, hobjects⟩ := exists_ok_of_any_toOption
    (show ((mapDocuments {} (fun _ => false) [keepers]).2.toOption.any fun set =>
      (set.pojos.filterMap (·.object?)).any fun object => decide (object.members.map (·.state)
        = [.requiredNotNullable, .requiredNullable, .tristate, .optionalNotNullable,
          .requiredNotNullable])) = true by decide +kernel)
  obtain ⟨object, hobject, hstates⟩ := List.any_eq_true.mp hobjects
  obtain ⟨pojo, hpojo, hpojo_eq⟩ := List.mem_filterMap.mp hobject
  cases pojo with
  | object o =>
    obtain rfl := Option.some.inj hpojo_eq
    obtain ⟨course, -, hends, hobjects, -⟩ :=
      member_states_survive hasDistinctProperties_keepers hset
    have hne : o.members ≠ [] := by
      intro hnone
      rw [hnone] at hstates
      cases hstates
    obtain ⟨schema, hschema⟩ := (hobjects _ hpojo o (.inl rfl)).resolve_left hne
    obtain ⟨-, k, hk, hproperties, -⟩ := hends schema o hschema
    refine ⟨set, hset, o, hpojo, of_decide_eq_true hstates, course, schema, hschema, k, hk, ?_⟩
    intro property hproperty
    obtain ⟨member, hmember, hnecessity, -⟩ := hproperties property hproperty
    exact ⟨member, hmember, hnecessity⟩
  | _ => cases hpojo_eq

end PojoGraph
