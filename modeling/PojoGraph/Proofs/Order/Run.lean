import PojoGraph.Proofs.Order.PojoSet
import PojoGraph.Proofs.Order.Resolution
import PojoGraph.Proofs.Order.Sweep
import PojoGraph.Proofs.Run.Inlining

/-!
# Runs over schemas in another order

The order in which schemas are declared decides which of two schemas that ask for one name gets
it, and which gets a number. Nothing else depends on it: where no name is ever numbered, a run over
the same schemas in another order succeeds as well, and gives the same types and the same
warnings.

## Main definitions

* `Course.KeepsNames` — no name is numbered.

## Main statements

* `resolve_of_perm` — schemas in another order resolve to the same.
* `mapDocuments_of_perm` — a run over them gives the same set.
* `declaration_order_is_immaterial` — so does a run over one document.
-/

namespace PojoGraph

/-! ## Resolution -/

theorem Schema.sizeOfAll_of_perm {schemas schemas' : List Schema} (h : schemas.Perm schemas') :
    sizeOfAll schemas = sizeOfAll schemas' := by
  induction h with
  | nil => rfl
  | cons schema _ ih => simp only [sizeOfAll, ih]
  | swap first second rest => simp only [sizeOfAll]; omega
  | trans _ _ ih ih' => exact ih.trans ih'

/-- **Schemas in another order resolve to the same**, if each gets all names that it asks for. -/
theorem resolve_of_perm {settings : Settings} {roots roots' : List Pending}
    (hperm : roots.Perm roots') (hnodup : (roots.map (·.name.key)).Nodup)
    (hgrants : (Registry.ofPending roots).Grants
      ((List.range (Sweep.enough roots)).flatMap fun n =>
        (Sweep.after settings { pending := roots, registry := .ofPending roots }
          n).pending.flatMap Pending.derivedNames))
    {resolution : Resolution} (h : (resolve settings (.ofPending roots) roots).2 = .ok resolution) :
    ∃ resolution', (resolve settings (.ofPending roots') roots').2 = .ok resolution'
      ∧ resolution.entries.Perm resolution'.entries
      ∧ resolution.warnings.Perm resolution'.warnings := by
  obtain ⟨⟨hfaults, hpending⟩, hsettle, hwarnings⟩ := snd_resolve_eq_ok_iff.mp h
  have haccounts := Sweep.accounts_ofPending settings hnodup
  have hstart : Sweep.Alike { pending := roots, registry := .ofPending roots }
      { pending := roots', registry := .ofPending roots' } := by
    refine ⟨hperm, ?_, .refl [], .refl [], rfl⟩
    exact (List.reverse_perm _).trans ((hperm.map _).trans (List.reverse_perm _).symm)
  have hend : (Sweep.run settings (.ofPending roots) roots).Alike
      (Sweep.run settings (.ofPending roots') roots') := by
    -- Both sweeps make as many passes: their number depends on the sizes of the schemas alone.
    have henough : Sweep.enough roots' = Sweep.enough roots :=
      congrArg (· + 1) (Schema.sizeOfAll_of_perm (hperm.map _)).symm
    rw [Sweep.run, Sweep.run, henough]
    exact hstart.after haccounts _ hfaults hgrants
  obtain ⟨visits, -, hvisits⟩ := haccounts.after (Sweep.enough roots) hfaults
  have hkeys : (Dictionary.keys (Sweep.run settings (.ofPending roots) roots).table).Nodup := by
    have hqueue := hvisits.nodup
    rw [List.map_append, List.map_map] at hqueue
    rw [Sweep.run, hvisits.table, Dictionary.keys, List.map_map]
    exact (List.nodup_append.mp hqueue).1
  obtain ⟨entries', hsettle', hentries⟩ := ClassTable.settle_of_perm hend.table hkeys hsettle
  refine ⟨⟨entries', (Sweep.run settings (.ofPending roots') roots').warnings⟩, ?_, hentries, ?_⟩
  · refine snd_resolve_eq_ok_iff.mpr ⟨⟨?_, ?_⟩, hsettle', rfl⟩
    · rw [← hend.faults, hfaults]
    · exact (hpending ▸ hend.pending.symm).eq_nil
  · rw [← hwarnings]
    exact hend.warnings

/-! ## Runs -/

/-- No name is numbered in the run: claiming the names that its schemas ask for, one after the
other, gives each of them as it is. -/
def Course.KeepsNames {settings : Settings} {isLoaded : String → Bool} {documents : List Document}
    (course : Course settings isLoaded documents) : Prop :=
  (Registry.ofPending course.roots).Grants course.derivedNames

theorem mem_unloadedReferences_of_perm {isLoaded : String → Bool}
    {schemas schemas' : List (String × Schema)} (h : schemas.Perm schemas') {fault : Fault} :
    fault ∈ unloadedReferences isLoaded schemas ↔ fault ∈ unloadedReferences isLoaded schemas' := by
  simp only [mem_unloadedReferences_iff, h.mem_iff]

section

variable {settings : Settings} {isLoaded : String → Bool} {documents documents' : List Document}

/-- No name is numbered if the schemas found in others have the names asked for. -/
theorem Course.keepsNames_iff {course : Course settings isLoaded documents} :
    course.KeepsNames ↔ course.found.map (·.name) = course.derivedNames := by
  rw [KeepsNames, Registry.Grants, course.claimAll_derivedNames]

/-- The names asked for in a run are those asked for in its passes. -/
theorem Course.derivedNames_eq (course : Course settings isLoaded documents) :
    course.derivedNames = (List.range (Sweep.enough course.roots)).flatMap fun n =>
      (Sweep.after settings { pending := course.roots, registry := .ofPending course.roots }
        n).pending.flatMap Pending.derivedNames := by
  rw [← List.flatMap_assoc, ← course.passes_eq, List.flatMap_map]
  rfl

/-- **A run over the same schemas in another order gives the same set**, if no name is
numbered. -/
theorem mapDocuments_of_perm (course : Course settings isLoaded documents)
    (hkeeps : course.KeepsNames)
    (hperm : (documents.flatMap (·.schemas)).Perm (documents'.flatMap (·.schemas))) :
    ∃ set set', (mapDocuments settings isLoaded documents).2 = .ok set
      ∧ (mapDocuments settings isLoaded documents').2 = .ok set'
      ∧ set.pojos.Perm set'.pojos ∧ set.warnings.Perm set'.warnings := by
  have hincluded : (includedSchemas course.exclusion documents).Perm
      (includedSchemas course.exclusion documents') := hperm.filter _
  have hroots : course.roots.Perm
      ((includedSchemas course.exclusion documents').map (Pending.ofSchema settings)) :=
    course.roots_eq ▸ hincluded.map _
  have hloaded :
      unloadedReferences isLoaded (includedSchemas course.exclusion documents') = [] := by
    rw [List.eq_nil_iff_forall_not_mem]
    intro fault hfault
    rw [← mem_unloadedReferences_of_perm hincluded, course.loaded] at hfault
    cases hfault
  rw [Course.KeepsNames, course.derivedNames_eq] at hkeeps
  obtain ⟨log, warnings, hresolves⟩ := course.resolves
  have hresolve : (resolve settings (.ofPending course.roots) course.roots).2
      = .ok ⟨course.final.entries, warnings⟩ := congrArg (·.2) hresolves
  obtain ⟨resolution', hresolve', hentries, hwarnings⟩ :=
    resolve_of_perm hroots course.nodup_keys_roots hkeeps hresolve
  have hnodup : (((includedSchemas course.exclusion documents').map
      (Pending.ofSchema settings)).map (·.name.key)).Nodup :=
    (hroots.map _).nodup_iff.mp course.nodup_keys_roots
  have hrun := resolveDocuments_eq course.isExclusion course.loaded course.roots_eq
    course.nodup_keys_roots
  have hrun' := resolveDocuments_eq course.isExclusion hloaded rfl hnodup
  rw [hresolve] at hrun
  rw [hresolve'] at hrun'
  refine ⟨_, _, by rw [snd_mapDocuments, hrun]; rfl, by rw [snd_mapDocuments, hrun']; rfl, ?_, ?_⟩
  · exact pojos_ofEntries_of_perm course.areSettled hentries settings course.exclusion
  · exact hwarnings.append
      (warnings_ofEntries_of_perm course.areSettled hentries settings course.exclusion)

end

/-- **The order in which a document declares its schemas is immaterial**, if no name is ever
numbered. Whatever order they are put in, the run succeeds as well, and gives the same types and
the same warnings up to order. -/
theorem declaration_order_is_immaterial {settings : Settings} {document document' : Document}
    {set : PojoSet} (h : (mapDocument settings document).2 = .ok set)
    (course : Course settings (fun _ => false) [document]) (hkeeps : course.KeepsNames)
    (hperm : document.schemas.Perm document'.schemas) :
    ∃ set', (mapDocument settings document').2 = .ok set'
      ∧ set.pojos.Perm set'.pojos ∧ set.warnings.Perm set'.warnings := by
  have hschemas : ([document].flatMap (·.schemas)).Perm ([document'].flatMap (·.schemas)) := by
    rwa [List.flatMap_singleton, List.flatMap_singleton]
  obtain ⟨first, set', hfirst, hset', hpojos, hwarnings⟩ :=
    mapDocuments_of_perm course hkeeps hschemas
  obtain rfl : set = first := Except.ok.inj (h.symm.trans hfirst)
  exact ⟨set', hset', hpojos, hwarnings⟩

/-- Pets with an owner written in place, dogs composed of them, and a type for their keys. -/
def ownedPets : Document :=
  .ofSchemas
    [("Dog", .inline { allOf := [.ref "#/components/schemas/Pet"] }),
      ("Pet", .inline { properties :=
        [("key", .ref "#/components/schemas/Key"),
          ("owner", .inline { properties := [("key", .ref "#/components/schemas/Key")] })] }),
      ("Key", .inline { types := some (.single .string), description := some "A key." })]

/-- The same pets with the key first. -/
theorem declaration_order_is_immaterial_for_pets :
    ∃ set, (mapDocument {} ownedPets).2 = .ok set
      ∧ set.pojos.map (·.name.raw) = ["Dog", "Pet", "PetOwner"]
      ∧ ∃ set', (mapDocument {} (.ofSchemas ownedPets.schemas.reverse)).2 = .ok set'
        ∧ set.pojos.Perm set'.pojos ∧ set.warnings.Perm set'.warnings := by
  obtain ⟨set, hset, hnames⟩ := exists_ok_of_any_toOption
    (show ((mapDocument {} ownedPets).2.toOption.any fun set =>
      decide (set.pojos.map (·.name.raw) = ["Dog", "Pet", "PetOwner"])) = true
      by decide +kernel)
  obtain ⟨course, -⟩ := exists_course hset
  have hexclusion : { patterns := [] } = course.exclusion := Except.ok.inj course.isExclusion
  have hroots : course.roots = ownedPets.schemas.map (Pending.ofSchema {}) := by
    rw [course.roots_eq, ← hexclusion]
    rfl
  have hkeeps : course.KeepsNames := by
    rw [Course.KeepsNames, course.derivedNames_eq, hroots, Registry.Grants]
    decide +kernel
  have hperm : ownedPets.schemas.Perm (Document.ofSchemas ownedPets.schemas.reverse).schemas :=
    (List.reverse_perm _).symm
  obtain ⟨set', hset', hpojos, hwarnings⟩ :=
    declaration_order_is_immaterial hset course hkeeps hperm
  exact ⟨set, hset, of_decide_eq_true hnames, set', hset', hpojos, hwarnings⟩

end PojoGraph
