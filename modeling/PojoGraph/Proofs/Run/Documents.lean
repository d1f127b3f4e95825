import PojoGraph.Proofs.Gathering.References
import PojoGraph.Proofs.Run.Binding

/-!
# References between documents

A reference leads into its own document or into one that it gives, but the name that is looked up
is that of the schema alone. All documents of a run share their names. So a reference is bound to
the schema that its document declares, if that declares one; otherwise another document that
declares the name, or a schema found in another, takes its place.

## Main definitions

* `DocumentSet.target?` — the document that a reference leads into.
* `Document.declared` — the schemas of a document that are not excluded.
* `Course.BindsWithin` — a name is bound to a schema of a document, or to nothing.

## Main statements

* `DocumentSet.exists_target?` — references of a run lead into its documents.
* `remote_reference_binds_within_iff` — when a reference is bound within the document that it
  leads into.
-/

namespace PojoGraph

/-! ## Documents -/

namespace DocumentSet

variable {set : DocumentSet}

/-- The document of a key: the main document under its name, or one of the others. -/
def document? (set : DocumentSet) (key : String) : Option Document :=
  if set.mainName = some key then some set.main else set.external.lookup? key

/-- The document that a reference of a document leads into: that document itself, or the one that
the reference gives. -/
def target? (set : DocumentSet) (source : Document) (reference : String) : Option Document :=
  match refFile reference with
  | none => some source
  | some path => set.document? (documentKey path)

theorem exists_document?_of_hasKey {key : String} (h : set.hasKey key = true) :
    ∃ document ∈ set.documents, set.document? key = some document := by
  rw [document?]
  by_cases hmain : set.mainName = some key
  · exact ⟨set.main, List.mem_cons_self, if_pos hmain⟩
  · have hkey : key ∈ Dictionary.keys set.external := (hasKey_iff.mp h).resolve_left hmain
    cases hlookup : set.external.lookup? key with
    | none => exact absurd hkey (Dictionary.lookup?_eq_none_iff.mp hlookup)
    | some document =>
      refine ⟨document, List.mem_cons_of_mem _ ?_, if_neg hmain⟩
      obtain ⟨before, after, heq, -⟩ := List.lookup_eq_some_iff.mp hlookup
      exact List.mem_map.mpr ⟨(key, document), by rw [heq]; simp, rfl⟩

end DocumentSet

theorem isLoaded_of_unloadedReferences {isLoaded : String → Bool}
    {schemas : List (String × Schema)} (h : unloadedReferences isLoaded schemas = [])
    {schema : String × Schema} (hschema : schema ∈ schemas) {reference path : String}
    (hreference : reference ∈ schema.2.references) (hpath : refFile reference = some path) :
    isLoaded path = true := by
  by_contra hloaded
  have hfault := mem_unloadedReferences_iff.mpr ⟨schema, hschema, reference, hreference, path,
    hpath, eq_false_of_ne_true hloaded, rfl⟩
  rw [h] at hfault
  cases hfault

/-- The schemas of a document that are not excluded, under the names made of their keys. -/
def Document.declared (settings : Settings) (exclusion : Exclusion) (document : Document) :
    List Pending :=
  (includedSchemas exclusion [document]).map (Pending.ofSchema settings)

namespace Course

section

variable {settings : Settings} {isLoaded : String → Bool} {documents : List Document}
  {course : Course settings isLoaded documents} {name : PojoName} {document : Document}

theorem mem_roots_iff {root : Pending} : root ∈ course.roots
    ↔ ∃ document ∈ documents, root ∈ document.declared settings course.exclusion := by
  simp only [mem_roots, Document.declared, includedSchemas, List.mem_map, List.mem_filter,
    List.mem_flatMap, List.mem_singleton]
  grind

/-- The name is bound to a schema of the document, if it is bound at all. -/
def BindsWithin (course : Course settings isLoaded documents) (name : PojoName)
    (document : Document) : Prop :=
  ∀ bound, course.boundTo? name = some bound →
    bound ∈ document.declared settings course.exclusion

/-- A name is bound to the schema of whichever document declares it. -/
theorem boundTo?_of_mem_declared (hdocument : document ∈ documents) {schema : Pending}
    (hschema : schema ∈ document.declared settings course.exclusion)
    (hkey : schema.name.key = name.key) : course.boundTo? name = some schema :=
  boundTo?_of_mem_roots (mem_roots_iff.mpr ⟨document, hdocument, hschema⟩) hkey

/-- A name that no document declares and no schema derives is bound to nothing. -/
theorem boundTo?_eq_none_of_not_derives
    (hnone : ∀ document ∈ documents, ∀ schema ∈ document.declared settings course.exclusion,
      schema.name.key ≠ name.key) (hderives : ¬ course.Derives name.key) :
    course.boundTo? name = none := by
  have hroots : ∀ root ∈ course.roots, root.name.key ≠ name.key := by
    intro root hroot
    obtain ⟨document, hdocument, hmem⟩ := mem_roots_iff.mp hroot
    exact hnone document hdocument root hmem
  cases hbound : course.boundTo? name with
  | none => rfl
  | some pending =>
    have hfound := mem_found_of_boundTo? hroots hbound
    exact absurd ((exists_mem_found_iff_derives hroots).mp ⟨pending, hfound, hbound⟩) hderives

/-- **A name is bound within a document if and only if the document declares it, or nobody takes
it**: no document declares it and no schema derives it. -/
theorem bindsWithin_iff (hdocument : document ∈ documents) : course.BindsWithin name document
    ↔ (∃ schema ∈ document.declared settings course.exclusion, schema.name.key = name.key)
      ∨ (∀ other ∈ documents, ∀ schema ∈ other.declared settings course.exclusion,
          schema.name.key ≠ name.key) ∧ ¬ course.Derives name.key := by
  constructor
  · intro hbinds
    cases hbound : course.boundTo? name with
    | some bound =>
      exact .inl ⟨bound, hbinds bound hbound, (boundTo?_eq_some_iff.mp hbound).2⟩
    | none =>
      have hqueue := boundTo?_eq_none_iff.mp hbound
      have hroots : ∀ root ∈ course.roots, root.name.key ≠ name.key := by
        intro root hroot
        refine hqueue root ?_
        rw [queue_eq_append]
        exact List.mem_append_left _ hroot
      right
      constructor
      · intro other hother schema hschema
        exact hroots schema (mem_roots_iff.mpr ⟨other, hother, hschema⟩)
      · intro hderives
        obtain ⟨inline, -, hinline⟩ := (exists_mem_found_iff_derives hroots).mpr hderives
        rw [hbound] at hinline
        cases hinline
  · rintro (⟨schema, hschema, hkey⟩ | ⟨hnone, hderives⟩) bound hbound
    · rw [boundTo?_of_mem_declared hdocument hschema hkey] at hbound
      cases hbound
      exact hschema
    · rw [boundTo?_eq_none_of_not_derives hnone hderives] at hbound
      cases hbound

end

end Course

/-- Without patterns nothing is excluded. -/
theorem Course.exclusion_eq {settings : Settings} {isLoaded : String → Bool}
    {documents : List Document} (course : Course settings isLoaded documents)
    (h : settings.excludedSchemas = []) : course.exclusion = ⟨[]⟩ := by
  have hexclusion := course.isExclusion
  rw [h] at hexclusion
  exact (Except.ok.inj hexclusion).symm

theorem Document.declared_of_nil (settings : Settings) (document : Document) :
    document.declared settings ⟨[]⟩ = document.schemas.map (Pending.ofSchema settings) := by
  simp [declared, includedSchemas, Exclusion.excludes]

/-! ## Runs over sets of documents -/

section

variable {settings : Settings} {documents : DocumentSet}

/-- The references of a run lead into its documents. -/
theorem DocumentSet.exists_target?
    (course : Course settings documents.isLoaded documents.documents) {source : Document}
    (hsource : source ∈ documents.documents) {schema : Pending}
    (hschema : schema ∈ source.declared settings course.exclusion) {reference : String}
    (hreference : reference ∈ schema.schema.references) :
    ∃ target ∈ documents.documents, documents.target? source reference = some target := by
  rw [target?]
  cases hpath : refFile reference with
  | none => exact ⟨source, hsource, rfl⟩
  | some path =>
    have hroot : schema ∈ course.roots := Course.mem_roots_iff.mpr ⟨source, hsource, hschema⟩
    obtain ⟨entry, hentry, rfl⟩ := Course.mem_roots.mp hroot
    exact exists_document?_of_hasKey
      (isLoaded_of_unloadedReferences course.loaded hentry hreference hpath)

/-- **When a reference is bound within the document that it leads into.** In a run that succeeds
each reference leads into a document of the run. It is bound to a schema of that document or to
nothing if and only if the document declares such a schema, or no document does and no schema
derives the name. In the latter case the name is left open; a document that declares the name
binds the reference, whichever document that is. -/
theorem remote_reference_binds_within_iff {set : PojoSet}
    (h : (mapDocumentSet settings documents).2 = .ok set) :
    ∃ course : Course settings documents.isLoaded documents.documents, course.Makes set
      ∧ ∀ source ∈ documents.documents, ∀ schema ∈ source.declared settings course.exclusion,
        ∀ reference ∈ schema.schema.references,
        ∃ target ∈ documents.documents, documents.target? source reference = some target
          ∧ (course.BindsWithin (settings.referenceName reference) target
            ↔ (∃ declared ∈ target.declared settings course.exclusion,
                declared.name.key = (settings.referenceName reference).key)
              ∨ (∀ other ∈ documents.documents, ∀ declared ∈ other.declared settings
                  course.exclusion, declared.name.key ≠ (settings.referenceName reference).key)
                ∧ ¬ course.Derives (settings.referenceName reference).key)
          ∧ (∀ other ∈ documents.documents, ∀ declared ∈ other.declared settings course.exclusion,
              declared.name.key = (settings.referenceName reference).key →
                course.boundTo? (settings.referenceName reference) = some declared)
          ∧ (course.boundTo? (settings.referenceName reference) = none →
              course.LeavesOpen set (settings.referenceName reference)) := by
  obtain ⟨course, hmakes⟩ := exists_course h
  refine ⟨course, hmakes, fun source hsource schema hschema reference hreference => ?_⟩
  obtain ⟨target, htarget, hleads⟩ :=
    DocumentSet.exists_target? course hsource hschema hreference
  refine ⟨target, htarget, hleads, Course.bindsWithin_iff htarget, ?_, ?_⟩
  · intro other hother declared hdeclared hkey
    exact Course.boundTo?_of_mem_declared hother hdeclared hkey
  · intro hnone
    exact Course.leavesOpen_of_boundTo? hmakes hnone

end

/-- Pets whose owners are described in the document itself, while their references lead into
another one. -/
def pets : Document :=
  .ofSchemas
    [("Owner", .inline { properties := [("id", .inline { types := some (.single .string) })] }),
      ("Pet", .inline { allOf := [.ref "people.json#/components/schemas/Owner"] })]

/-- People, among whom there are no owners. -/
def people : Document :=
  .ofSchemas
    [("Person", .inline { properties := [("name", .inline { types := some (.single .string) })] })]

/-- Pets with the people that they refer to. -/
def petsAndPeople : DocumentSet :=
  ⟨pets, some "main.json", [("people.json", people)]⟩

theorem exists_mapDocumentSet_petsAndPeople :
    ∃ set, (mapDocumentSet {} petsAndPeople).2 = .ok set ∧ set.warnings = [] := by
  obtain ⟨set, hset, hwarnings⟩ := exists_ok_of_any_toOption
    (show ((mapDocumentSet {} petsAndPeople).2.toOption.any (·.warnings.isEmpty)) = true
      by decide +kernel)
  exact ⟨set, hset, List.isEmpty_iff.mp hwarnings⟩

/-- The reference of a pet leads to people, and its name is that of the owner described beside
the pet. -/
theorem owner_of_petsAndPeople
    (course : Course {} petsAndPeople.isLoaded petsAndPeople.documents) :
    ∃ owner pet, pets.declared {} course.exclusion = [owner, pet]
      ∧ "people.json#/components/schemas/Owner" ∈ pet.schema.references
      ∧ petsAndPeople.target? pets "people.json#/components/schemas/Owner" = some people
      ∧ owner.name = Settings.referenceName {} "people.json#/components/schemas/Owner"
      ∧ ∀ person ∈ people.declared {} course.exclusion, person.name.key ≠ owner.name.key := by
  have hname : refName "people.json#/components/schemas/Owner" = "Owner" := by decide +kernel
  have hpath : refFile "people.json#/components/schemas/Owner" = some "people.json" := by
    decide +kernel
  have hkey : documentKey "people.json" = "people.json" := by decide +kernel
  rw [course.exclusion_eq rfl, Document.declared_of_nil, Document.declared_of_nil]
  refine ⟨_, _, rfl, List.mem_singleton_self _, ?_, ?_, ?_⟩
  · rw [DocumentSet.target?, hpath]
    simp only [hkey]
    rfl
  · rw [Settings.referenceName, hname]
    rfl
  · intro person hperson
    obtain rfl := List.mem_singleton.mp hperson
    decide +kernel

/-- **A reference is bound to the wrong document**: a pet is composed of the owner that its own
document describes, although the reference leads to people, among whom there are no owners. -/
theorem remote_reference_bound_elsewhere :
    ∃ set, (mapDocumentSet {} petsAndPeople).2 = .ok set ∧ set.warnings = []
      ∧ ∃ course : Course {} petsAndPeople.isLoaded petsAndPeople.documents, course.Makes set
        ∧ ∃ schema ∈ pets.declared {} course.exclusion, ∃ reference ∈ schema.schema.references,
          petsAndPeople.target? pets reference = some people
            ∧ ∃ bound ∈ pets.declared {} course.exclusion,
              course.boundTo? (Settings.referenceName {} reference) = some bound
                ∧ bound ∉ people.declared {} course.exclusion := by
  obtain ⟨set, hset, hwarnings⟩ := exists_mapDocumentSet_petsAndPeople
  obtain ⟨course, hmakes⟩ := exists_course hset
  obtain ⟨owner, pet, hpets, hreference, htarget, hname, hpeople⟩ := owner_of_petsAndPeople course
  have howner : owner ∈ pets.declared {} course.exclusion := by simp [hpets]
  have hpet : pet ∈ pets.declared {} course.exclusion := by simp [hpets]
  refine ⟨set, hset, hwarnings, course, hmakes, pet, hpet, _, hreference, htarget, owner, howner,
    ?_, fun hmem => hpeople owner hmem rfl⟩
  exact Course.boundTo?_of_mem_declared List.mem_cons_self howner (by rw [hname])

/-- The owner of a pet is not described among the people that the reference leads to. -/
theorem owner_not_bound_within_people :
    ∃ set, (mapDocumentSet {} petsAndPeople).2 = .ok set
      ∧ ∃ course : Course {} petsAndPeople.isLoaded petsAndPeople.documents, course.Makes set
        ∧ ¬ course.BindsWithin
          (Settings.referenceName {} "people.json#/components/schemas/Owner") people := by
  obtain ⟨set, hset, -⟩ := exists_mapDocumentSet_petsAndPeople
  obtain ⟨course, hmakes, hreferences⟩ := remote_reference_binds_within_iff hset
  obtain ⟨owner, pet, hpets, hreference, htarget, hname, hpeople⟩ := owner_of_petsAndPeople course
  have howner : owner ∈ pets.declared {} course.exclusion := by simp [hpets]
  have hpet : pet ∈ pets.declared {} course.exclusion := by simp [hpets]
  obtain ⟨target, -, hleads, hiff, -⟩ :=
    hreferences pets List.mem_cons_self pet hpet _ hreference
  rw [htarget] at hleads
  obtain rfl := Option.some.inj hleads
  refine ⟨set, hset, course, hmakes, fun hbinds => ?_⟩
  rcases hiff.mp hbinds with ⟨person, hperson, hkey⟩ | ⟨hnone, -⟩
  · exact hpeople person hperson (by rw [hkey, hname])
  · exact hnone pets List.mem_cons_self owner howner (by rw [hname])

end PojoGraph
