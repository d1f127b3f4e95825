import PojoGraph.Proofs.PojoSet.Copies

/-!
# References to schemas that are not declared

A name that no schema of the documents has may still be bound: the schemas that are found in
others get names too, and these are claimed without regard to the references of the documents.
Such a name is captured if and only if it is asked for at some site, or a number gives its key to
a name that is asked for. A name that is not captured is left open: no type and no branch goes by
it, and references to it are reported or excluded.

## Main definitions

* `Course.LeavesOpen` — nothing goes by a name.
* `Course.Derives` — a name is asked for by some schema, or got by a number.

## Main statements

* `Course.leavesOpen_of_boundTo?` — a name that is bound to nothing is left open.
* `reference_captured_iff_derived` — when a schema found in another captures a reference.
-/

namespace PojoGraph

namespace Course

variable {settings : Settings} {isLoaded : String → Bool} {documents : List Document}
  {course : Course settings isLoaded documents} {set : PojoSet} {name : PojoName}

/-! ## Open names -/

/-- Nothing goes by the name: it has no entry in the final table, no composition that has been
resolved has a branch of that name, no generated type has it, and each reference to it in a
generated type is excluded or reported for that type. -/
structure LeavesOpen (course : Course settings isLoaded documents) (set : PojoSet)
    (name : PojoName) : Prop where
  noEntry : course.final.lookup? name.key = none
  noBranch : ∀ visit ∈ course.visits, ∀ stub, visit.classified = .stub stub →
    ∀ branch ∈ stub.branchNames, branch.key ≠ name.key
  noPojo : ∀ pojo ∈ course.pojos, pojo.name.key ≠ name.key
  reported : ∀ pojo ∈ course.pojos, ∀ reference ∈ pojo.references, reference.key = name.key →
    course.exclusion.excludes reference.raw = true
      ∨ ∃ reported, reported.key = name.key
        ∧ .danglingReference pojo.name reported ∈ set.warnings

/-- A generated type has the name of a schema of the run. -/
theorem exists_boundTo?_of_mem_pojos {pojo : Pojo} (h : pojo ∈ course.pojos) :
    ∃ pending, course.boundTo? pojo.name = some pending := by
  have hname : pojo.name ∈ course.queue.map (·.name) :=
    course.names_pojos_sublist.subset (List.mem_map_of_mem h)
  obtain ⟨pending, hpending, heq⟩ := List.mem_map.mp hname
  exact ⟨pending, boundTo?_eq_some_iff.mpr ⟨hpending, by rw [heq]⟩⟩

/-- A composition that has been resolved has no branch without an entry. -/
theorem lookup?_ne_none_of_mem_branchNames {visit : Visit} (hvisit : visit ∈ course.visits)
    {stub : Stub} (hstub : visit.classified = .stub stub) {branch : PojoName}
    (hbranch : branch ∈ stub.branchNames) : course.final.lookup? branch.key ≠ none := by
  obtain ⟨after, -, hbecomes⟩ := exists_becomes hvisit
  rw [hstub] at hbecomes
  intro hnone
  cases hbecomes with
  | stub hready hresolve =>
    obtain ⟨object, hobject⟩ := hready branch hbranch
    rw [ClassTable.lead, ClassTable.leadFrom, hnone] at hobject
    cases hobject

/-- **A name that is bound to nothing is left open.** -/
theorem leavesOpen_of_boundTo? (h : course.Makes set) (hnone : course.boundTo? name = none) :
    course.LeavesOpen set name := by
  have hentry : course.final.lookup? name.key = none := by
    have hlookup := course.lookup?_final name
    rwa [hnone] at hlookup
  have hpojo : ∀ pojo ∈ course.pojos, pojo.name.key ≠ name.key := by
    intro pojo hpojo hkey
    obtain ⟨pending, hpending⟩ := exists_boundTo?_of_mem_pojos hpojo
    obtain ⟨hmem, heq⟩ := boundTo?_eq_some_iff.mp hpending
    exact boundTo?_eq_none_iff.mp hnone pending hmem (heq.trans hkey)
  refine ⟨hentry, ?_, hpojo, ?_⟩
  · intro visit hvisit stub hstub branch hbranch hkey
    exact lookup?_ne_none_of_mem_branchNames hvisit hstub hbranch (hkey ▸ hentry)
  · intro pojo hmem reference hreference hkey
    cases hexcluded : course.exclusion.excludes reference.raw with
    | true => exact .inl rfl
    | false =>
      obtain ⟨reported, hreported, hwarning⟩ :=
        exists_danglingReference hmem hreference (by rwa [hkey]) hexcluded
      exact .inr ⟨reported, hreported.trans hkey, h.warnings.subset hwarning⟩

/-! ## Names of documents -/

/-- A name with the key of a schema of the documents is bound to that schema. -/
theorem boundTo?_of_mem_roots {root : Pending} (hroot : root ∈ course.roots)
    (hkey : root.name.key = name.key) : course.boundTo? name = some root := by
  refine boundTo?_eq_some_iff.mpr ⟨?_, hkey⟩
  rw [queue_eq_append]
  exact List.mem_append_left _ hroot

/-- Any other name is bound to a schema found in another, or to nothing. -/
theorem mem_found_of_boundTo? {pending : Pending}
    (hroots : ∀ root ∈ course.roots, root.name.key ≠ name.key)
    (h : course.boundTo? name = some pending) : pending ∈ course.found := by
  obtain ⟨hmem, hkey⟩ := boundTo?_eq_some_iff.mp h
  rw [queue_eq_append, List.mem_append] at hmem
  exact hmem.resolve_left fun hroot => hroots pending hroot hkey

theorem boundTo?_of_mem_found {inline : Pending} (hinline : inline ∈ course.found)
    (hkey : inline.name.key = name.key) : course.boundTo? name = some inline := by
  refine boundTo?_eq_some_iff.mpr ⟨?_, hkey⟩
  rw [queue_eq_append]
  exact List.mem_append_right _ hinline

/-! ## Captured names -/

/-- Some schema of the run asks for a name with the key, or asks for a name that is taken by then
and gets the key by its number. -/
def Derives (course : Course settings isLoaded documents) (key : String) : Prop :=
  (∃ derived ∈ course.derivedNames, derived.key = key)
    ∨ ∃ before derived after, course.derivedNames = before ++ derived :: after
      ∧ ((Registry.ofPending course.roots).claimAll before).2.Numbers derived key

/-- **The keys of found schemas are those that are derived**, among the keys that no schema of
the documents has. -/
theorem exists_mem_found_iff_derives (hroots : ∀ root ∈ course.roots, root.name.key ≠ name.key) :
    (∃ inline ∈ course.found, course.boundTo? name = some inline) ↔ course.Derives name.key := by
  have hfree : name.key ∉ (Registry.ofPending course.roots).keys := by
    simpa [Registry.ofPending] using hroots
  rw [Derives, ← Registry.mem_keys_claimAll_iff hfree, claimAll_derivedNames]
  simp only [List.mem_map, exists_exists_and_eq_and]
  constructor
  · rintro ⟨inline, hinline, hbound⟩
    exact ⟨inline, hinline, (boundTo?_eq_some_iff.mp hbound).2⟩
  · rintro ⟨inline, hinline, hkey⟩
    exact ⟨inline, hinline, boundTo?_of_mem_found hinline hkey⟩

end Course

variable {settings : Settings} {isLoaded : String → Bool} {documents : List Document}
  {set : PojoSet}

/-- **When a reference is captured.** In a run that succeeds, a name with the key of a schema that
is declared and not excluded is bound to that schema alone. Any other name is bound to a schema
found in another if and only if some schema asks for its key, or gets it by a number; otherwise it
is bound to nothing, and left open. -/
theorem reference_captured_iff_derived
    (h : (mapDocuments settings isLoaded documents).2 = .ok set) :
    ∃ course : Course settings isLoaded documents, course.Makes set ∧ ∀ name : PojoName,
      (∀ root ∈ course.roots, root.name.key = name.key → course.boundTo? name = some root)
        ∧ ((∀ root ∈ course.roots, root.name.key ≠ name.key) →
          ((∃ inline ∈ course.found, course.boundTo? name = some inline)
              ↔ course.Derives name.key)
            ∧ (¬ course.Derives name.key →
              course.boundTo? name = none ∧ course.LeavesOpen set name)) := by
  obtain ⟨course, hmakes⟩ := exists_course h
  refine ⟨course, hmakes, fun name => ⟨?_, fun hroots => ?_⟩⟩
  · intro root hroot hkey
    exact Course.boundTo?_of_mem_roots hroot hkey
  · have hcaptured := Course.exists_mem_found_iff_derives hroots
    refine ⟨hcaptured, fun hderives => ?_⟩
    have hnone : course.boundTo? name = none := by
      cases hbound : course.boundTo? name with
      | none => rfl
      | some pending =>
        have hfound := Course.mem_found_of_boundTo? hroots hbound
        exact absurd (hcaptured.mp ⟨pending, hfound, hbound⟩) hderives
    exact ⟨hnone, Course.leavesOpen_of_boundTo? hmakes hnone⟩

/-- Pets with an owner described in place, and users composed of another schema that goes by the
name of such an owner. -/
def petOwners : Document :=
  .ofSchemas
    [("Pet", .inline { properties := [("owner", .inline { properties :=
        [("id", .inline { types := some (.single .string) })] })] }),
      ("PetOwner", .inline { properties :=
        [("name", .inline { types := some (.single .string) })] }),
      ("User", .inline { allOf := [.ref "#/components/schemas/PetOwner"] })]

theorem exists_mapDocument_petOwners :
    ∃ set, (mapDocument { excludedSchemas := ["PetOwner"] } petOwners).2 = .ok set
      ∧ set.warnings = [] ∧ ∃ pojo ∈ set.pojos, pojo.name = ⟨"PetOwner", ""⟩ := by
  obtain ⟨set, hset, hchecked⟩ := exists_ok_of_any_toOption
    (show ((mapDocument { excludedSchemas := ["PetOwner"] } petOwners).2.toOption.any fun set =>
      set.warnings.isEmpty && set.pojos.any (·.name == ⟨"PetOwner", ""⟩)) = true by decide +kernel)
  simp only [Bool.and_eq_true, List.isEmpty_iff, List.any_eq_true, beq_iff_eq] at hchecked
  exact ⟨set, hset, hchecked⟩

/-- The type of that name comes from the schema described in place, and a schema that is not
excluded refers to it. -/
theorem exists_inline_of_petOwners {set : PojoSet}
    (course : Course { excludedSchemas := ["PetOwner"] } (fun _ => false) [petOwners])
    (hmakes : course.Makes set) (hpojo : ∃ pojo ∈ set.pojos, pojo.name = ⟨"PetOwner", ""⟩) :
    (∃ root ∈ course.roots, "#/components/schemas/PetOwner" ∈ root.schema.references)
      ∧ (∀ root ∈ course.roots, root.name.key ≠ PojoName.key ⟨"PetOwner", ""⟩)
      ∧ ∃ inline ∈ course.found, course.boundTo? ⟨"PetOwner", ""⟩ = some inline := by
  obtain ⟨exclusion, hexclusion, hdeclared⟩ := exists_ok_of_any_toOption
    (show ((Exclusion.ofPatterns ["PetOwner"]).toOption.any fun exclusion =>
      ((includedSchemas exclusion [petOwners]).any fun schema =>
          decide ("#/components/schemas/PetOwner" ∈ schema.2.references))
        && (includedSchemas exclusion [petOwners]).all fun schema =>
          PojoName.key ⟨schema.1, ""⟩ != PojoName.key ⟨"PetOwner", ""⟩) = true by decide +kernel)
  obtain ⟨hreference, hdeclared⟩ := Bool.and_eq_true_iff.mp hdeclared
  have hsame : exclusion = course.exclusion := by
    have hcourse := course.isExclusion
    rw [hexclusion] at hcourse
    exact Except.ok.inj hcourse
  rw [hsame] at hreference hdeclared
  have hroots : ∀ root ∈ course.roots, root.name.key ≠ PojoName.key ⟨"PetOwner", ""⟩ := by
    intro root hroot
    obtain ⟨schema, hschema, rfl⟩ := Course.mem_roots.mp hroot
    exact bne_iff_ne.mp (List.all_eq_true.mp hdeclared schema hschema)
  refine ⟨?_, hroots, ?_⟩
  · obtain ⟨schema, hschema, hmem⟩ := List.any_eq_true.mp hreference
    exact ⟨_, Course.mem_roots.mpr ⟨schema, hschema, rfl⟩, of_decide_eq_true hmem⟩
  · obtain ⟨pojo, hpojo, hname⟩ := hpojo
    rw [hmakes.pojos] at hpojo
    obtain ⟨original, horiginal, rfl⟩ := List.mem_map.mp hpojo
    rw [Pojo.name_rename] at hname
    obtain ⟨inline, hbound⟩ := Course.exists_boundTo?_of_mem_pojos horiginal
    rw [show original.name = ⟨"PetOwner", ""⟩ from hname] at hbound
    exact ⟨inline, Course.mem_found_of_boundTo? hroots hbound, hbound⟩

/-- **A reference is captured**: a user is composed of the owner of a pet once the schema that the
reference means is excluded, and nothing is reported. -/
theorem excluded_reference_captured :
    ∃ set, (mapDocument { excludedSchemas := ["PetOwner"] } petOwners).2 = .ok set
      ∧ set.warnings = []
      ∧ ∃ course : Course { excludedSchemas := ["PetOwner"] } (fun _ => false) [petOwners],
        course.Makes set ∧ ∃ root ∈ course.roots, ∃ reference ∈ root.schema.references,
          (∀ other ∈ course.roots, other.name.key ≠ PojoName.key ⟨refName reference, ""⟩)
            ∧ ∃ inline ∈ course.found,
              course.boundTo? ⟨refName reference, ""⟩ = some inline := by
  obtain ⟨set, hset, hwarnings, hpojo⟩ := exists_mapDocument_petOwners
  obtain ⟨course, hmakes⟩ := exists_course hset
  obtain ⟨⟨root, hroot, hreference⟩, hcaptured⟩ := exists_inline_of_petOwners course hmakes hpojo
  have hname : refName "#/components/schemas/PetOwner" = "PetOwner" := by decide +kernel
  refine ⟨set, hset, hwarnings, course, hmakes, root, hroot, _, hreference, ?_⟩
  rw [hname]
  exact hcaptured

/-- The captured name is asked for by a schema of the run. -/
theorem excluded_reference_derived :
    ∃ set, (mapDocument { excludedSchemas := ["PetOwner"] } petOwners).2 = .ok set
      ∧ ∃ course : Course { excludedSchemas := ["PetOwner"] } (fun _ => false) [petOwners],
        course.Makes set ∧ course.Derives (PojoName.key ⟨"PetOwner", ""⟩) := by
  obtain ⟨set, hset, -, hpojo⟩ := exists_mapDocument_petOwners
  obtain ⟨course, hmakes, hnames⟩ := reference_captured_iff_derived hset
  obtain ⟨-, hroots, hinline⟩ := exists_inline_of_petOwners course hmakes hpojo
  exact ⟨set, hset, course, hmakes, ((hnames ⟨"PetOwner", ""⟩).2 hroots).1.mp hinline⟩

/-- Where the declared schema is not excluded, the name is its own, and that of the owner described
in place is numbered. -/
example : (mapDocument {} petOwners).2.toOption.map (·.pojos.map (·.name.raw))
    = some ["Pet", "PetOwner", "User", "PetOwner2"] := by
  decide +kernel

end PojoGraph
