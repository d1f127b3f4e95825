import PojoGraph.Proofs.Classification.Everywhere
import PojoGraph.Proofs.Run.Course

/-!
# Declared properties

The properties of a schema are a dictionary: no name is declared twice. This is so in the schemas
inside it, too, and thus in each schema that a run visits. Classification makes one member of each
property, in their order and under its name.

## Main definitions

* `Schema.HasDistinctProperties`, `Document.HasDistinctProperties` — no schema declares a property
  twice.
* `Keywords.Declares` — the members of the declared properties.

## Main statements

* `Course.everywhere` — what holds throughout the documents holds in all visited schemas.
* `Course.hasDistinctProperties` — visited schemas declare no property twice.
* `eq_objectOf_of_classify`, `eq_stubOf_of_classify` — where objects come from.
-/

namespace PojoGraph

/-! ## What holds of all keywords -/

/-- What holds of all schemas that wait, and of what is found in such as it holds of, holds of
all that wait after some passes. -/
theorem Sweep.forall_schemas_after {settings : Settings} {P : Schema → Prop}
    (hfound : ∀ schema inner, P schema → inner ∈ schema.discovered → P inner) {sweep : Sweep}
    (h : ∀ schema ∈ sweep.schemas, P schema) (n : Nat) :
    ∀ schema ∈ (sweep.after settings n).schemas, P schema := by
  induction n with
  | zero => exact h
  | succ n ih =>
    intro inner hinner
    rw [schemas_after_succ] at hinner
    obtain ⟨schema, hschema, hmem⟩ := List.mem_flatMap.mp hinner
    exact hfound schema inner (ih schema hschema) hmem

/-- **What holds everywhere in the schemas of the documents holds everywhere in the schemas that a
run visits.** -/
theorem Course.everywhere {settings : Settings} {isLoaded : String → Bool}
    {documents : List Document} (course : Course settings isLoaded documents)
    {P : Keywords Schema → Prop}
    (h : ∀ document ∈ documents, ∀ entry ∈ document.schemas, entry.2.Everywhere P) :
    ∀ visit ∈ course.visits, visit.pending.schema.Everywhere P := by
  have hroots : ∀ root ∈ course.roots, root.schema.Everywhere P := by
    intro root hroot
    obtain ⟨entry, hentry, rfl⟩ := Course.mem_roots.mp hroot
    obtain ⟨document, hdocument, hmem⟩ := List.mem_flatMap.mp (List.mem_of_mem_filter hentry)
    exact h document hdocument entry hmem
  intro visit hvisit
  have hpending : visit.pending ∈ course.visits.map (·.pending) := List.mem_map_of_mem hvisit
  rw [course.passes_eq] at hpending
  obtain ⟨n, -, hwaits⟩ := List.mem_flatMap.mp hpending
  refine Sweep.forall_schemas_after (fun schema inner => .of_mem_discovered) ?_ n _
    (List.mem_map_of_mem hwaits)
  intro schema hschema
  obtain ⟨root, hroot, rfl⟩ := List.mem_map.mp hschema
  exact hroots root hroot

/-! ## Schemas without repeated properties -/

/-- Neither the schema nor any schema inside it declares a property twice. -/
def Schema.HasDistinctProperties (schema : Schema) : Prop :=
  ∀ k, Relation.ReflTransGen Schema.IsChild (.inline k) schema →
    (Dictionary.keys k.properties).Nodup

/-- No schema of the document declares a property twice. -/
def Document.HasDistinctProperties (document : Document) : Prop :=
  ∀ entry ∈ document.schemas, entry.2.HasDistinctProperties

namespace Schema.HasDistinctProperties

theorem nodup {k : Keywords Schema} (h : HasDistinctProperties (.inline k)) :
    (Dictionary.keys k.properties).Nodup :=
  Everywhere.here h

theorem ref (target : String) : HasDistinctProperties (.ref target) :=
  Everywhere.ref target

theorem inline_iff {k : Keywords Schema} : HasDistinctProperties (.inline k)
    ↔ (Dictionary.keys k.properties).Nodup ∧ ∀ child ∈ k.children, child.HasDistinctProperties :=
  Everywhere.inline_iff

/-- A schema in which no other stands declares no property twice. -/
theorem ofFacets (facets : Facets) : HasDistinctProperties (.inline { toFacets := facets }) :=
  Everywhere.ofFacets List.nodup_nil

end Schema.HasDistinctProperties

/-- **No schema that a run visits declares a property twice**, if no schema of its documents
does. -/
theorem Course.hasDistinctProperties {settings : Settings} {isLoaded : String → Bool}
    {documents : List Document} (course : Course settings isLoaded documents)
    (h : ∀ document ∈ documents, document.HasDistinctProperties) :
    ∀ visit ∈ course.visits, visit.pending.schema.HasDistinctProperties :=
  course.everywhere h

/-! ## Members of properties -/

theorem forall₂_mapWithState {α β σ : Type} (f : σ → α → β × σ) (state : σ) (as : List α) :
    List.Forall₂ (fun a b => ∃ state, b = (f state a).1) as (mapWithState f state as).1 := by
  induction as generalizing state with
  | nil => exact .nil
  | cons a rest ih => exact .cons ⟨state, rfl⟩ (ih _)

/-- The members are those of the declared properties, one for each in their order. -/
def Keywords.Declares (settings : Settings) (owner : PojoName) (k : Keywords Schema)
    (members : List Member) : Prop :=
  List.Forall₂ (fun property member =>
    ∃ survey, member = (memberOf settings owner k.required survey property).1)
    k.properties members

section

variable {settings : Settings} {owner : PojoName} {k : Keywords Schema} {members : List Member}

theorem declares_membersOf (survey : Survey) :
    k.Declares settings owner (membersOf settings owner k survey).1 :=
  forall₂_mapWithState _ _ _

/-- Members have the names of their properties. -/
theorem Keywords.Declares.names (h : k.Declares settings owner members) :
    members.map (·.name) = Dictionary.keys k.properties := by
  rw [Dictionary.keys, eq_comm, ← List.forall₂_eq_eq_eq, List.forall₂_map_left_iff,
    List.forall₂_map_right_iff]
  refine h.imp ?_
  rintro property member ⟨survey, rfl⟩
  rfl

variable {pending : Pending} {registry : Registry} {survey : Survey}

/-- An object that classification gives is the one of its schema. -/
theorem eq_objectOf_of_classify {object : ObjectPojo}
    (h : classify settings pending registry = .ok (.pojo (.object object), survey)) :
    ∃ k, pending.schema = .inline k
      ∧ object = (objectOf settings pending.name k { registry }).1 := by
  obtain ⟨name, schema⟩ := pending
  cases schema with
  | ref target => cases h
  | inline k =>
    refine ⟨k, rfl, ?_⟩
    cases classifies_classify h with
    | object => rfl
    | enum hsimple hvalues henum =>
      obtain ⟨⟨values, hpojo⟩, -⟩ := eq_enum_of_enumOf henum
      cases hpojo

/-- A stub that classification gives is the one of its schema. -/
theorem eq_stubOf_of_classify {stub : Stub}
    (h : classify settings pending registry = .ok (.stub stub, survey)) :
    ∃ k, pending.schema = .inline k
      ∧ stub = (stubOf settings pending.name k { registry }).1 := by
  obtain ⟨name, schema⟩ := pending
  cases schema with
  | ref target => cases h
  | inline k =>
    refine ⟨k, rfl, ?_⟩
    cases classifies_classify h with
    | composed => rfl

end

end PojoGraph
