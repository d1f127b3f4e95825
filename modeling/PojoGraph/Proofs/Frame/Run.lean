import PojoGraph.Proofs.Frame.PojoSet
import PojoGraph.Proofs.Frame.Sweep
import PojoGraph.Proofs.Run.Binding
import PojoGraph.Proofs.Run.Provenance

/-!
# Runs with extra schemas

A document may be given further schemas without any effect on the types of the others, as long as
these refer to nothing that comes from the extra ones and no name is numbered.

## Main definitions

* `Course.isApartFrom` — the names of a run that do not come from given schemas.

## Main statements

* `mapDocuments_part` — a run over some of the schemas makes its part of the set.
* `runs_are_local` — **so does a run over one document** less one schema.
-/

namespace PojoGraph

section

variable {settings : Settings} {isLoaded : String → Bool} {documents documents' : List Document}
  {before extras after : List (String × Schema)}

/-- The references of fewer schemas lead into documents of the run if all do. -/
theorem unloadedReferences_of_sublist {schemas schemas' : List (String × Schema)}
    (h : schemas.Sublist schemas') (hloaded : unloadedReferences isLoaded schemas' = []) :
    unloadedReferences isLoaded schemas = [] := by
  rw [List.eq_nil_iff_forall_not_mem] at hloaded ⊢
  intro fault hfault
  obtain ⟨schema, hschema, hfault⟩ := mem_unloadedReferences_iff.mp hfault
  exact hloaded fault (mem_unloadedReferences_iff.mpr ⟨schema, h.subset hschema, hfault⟩)

/-- The schemas that an exclusion leaves, waiting under the names made of their keys. -/
def rootsOf (settings : Settings) (exclusion : Exclusion) (schemas : List (String × Schema)) :
    List Pending :=
  (schemas.filter fun schema => !exclusion.excludes schema.1).map (Pending.ofSchema settings)

theorem rootsOf_append (exclusion : Exclusion) (schemas others : List (String × Schema)) :
    rootsOf settings exclusion (schemas ++ others)
      = rootsOf settings exclusion schemas ++ rootsOf settings exclusion others := by
  rw [rootsOf, List.filter_append, List.map_append, rootsOf, rootsOf]

theorem mem_rootsOf_iff {exclusion : Exclusion} {schemas : List (String × Schema)}
    {root : Pending} : root ∈ rootsOf settings exclusion schemas
      ↔ ∃ schema ∈ schemas, exclusion.excludes schema.1 = false
        ∧ Pending.ofSchema settings schema = root := by
  simp [rootsOf, and_assoc]

/-! ## Schemas of the run -/

namespace Course

/-- The key is that of no schema that comes from the given ones. -/
def isApartFrom (course : Course settings isLoaded documents') (extras : List (String × Schema)) :
    String → Bool :=
  PojoGraph.isApartFrom (rootsOf settings course.exclusion extras) (Sweep.enough course.roots)

variable {course : Course settings isLoaded documents'}
  (hschemas' : documents'.flatMap (·.schemas) = before ++ extras ++ after)

include hschemas'

variable (course) in
theorem roots_eq_rootsOf : course.roots = rootsOf settings course.exclusion before
    ++ rootsOf settings course.exclusion extras ++ rootsOf settings course.exclusion after := by
  rw [course.roots_eq, includedSchemas, hschemas', ← rootsOf_append, ← rootsOf_append]
  rfl

omit hschemas' in
/-- A schema that waits at the beginning is not excluded. -/
theorem mem_rootsOf_of_mem_roots {schemas : List (String × Schema)} {schema : String × Schema}
    (hschema : schema ∈ schemas) (hroot : Pending.ofSchema settings schema ∈ course.roots) :
    Pending.ofSchema settings schema ∈ rootsOf settings course.exclusion schemas := by
  obtain ⟨other, hother, heq⟩ := mem_roots.mp hroot
  have hkey : other.1 = schema.1 := congrArg (·.name.raw) heq
  have hincluded := (List.mem_filter.mp hother).2
  refine mem_rootsOf_iff.mpr ⟨schema, hschema, ?_, rfl⟩
  rw [← hkey]
  simpa using hincluded

variable (hkeeps : course.KeepsNames)

include hkeeps

/-- What comes from the extra schemas are the schemas of their waves. -/
theorem mem_firstWaves_rootsOf_iff {pending : Pending} :
    pending ∈ firstWaves (rootsOf settings course.exclusion extras) (Sweep.enough course.roots)
      ↔ ∃ extra ∈ extras, course.ComesFrom extra pending := by
  have hroots := course.roots_eq_rootsOf hschemas'
  constructor
  · intro h
    obtain ⟨n, hn, hwave⟩ := mem_firstWaves_iff.mp h
    obtain ⟨root, hroot, hpending⟩ := mem_waves_iff.mp hwave
    obtain ⟨extra, hextra, -, rfl⟩ := mem_rootsOf_iff.mp hroot
    refine ⟨extra, hextra, (comesFrom_iff hkeeps ?_).mpr (mem_firstWaves_iff.mpr ⟨n, hn, hpending⟩)⟩
    rw [hroots]
    exact List.mem_append_left _ (List.mem_append_right _ hroot)
  · rintro ⟨extra, hextra, hcomes⟩
    obtain ⟨n, hn, hpending⟩ :=
      mem_firstWaves_iff.mp ((comesFrom_iff hkeeps hcomes.1).mp hcomes)
    exact mem_firstWaves_iff.mpr ⟨n, hn, mem_waves_iff.mpr
      ⟨_, mem_rootsOf_of_mem_roots hextra hcomes.1, hpending⟩⟩

/-- A schema of the run has none of the names of what comes from the extra schemas if and only if
it comes from one of the others. -/
theorem isApartFrom_iff_comesFrom {pending : Pending} (hpending : pending ∈ course.queue) :
    course.isApartFrom extras pending.name.key = true
      ↔ ∃ schema ∈ before ++ after, course.ComesFrom schema pending := by
  have hroots := course.roots_eq_rootsOf hschemas'
  have hnodup := Sweep.nodup_firstWaves_of_le (Nat.le_succ _) (KeepsNames.nodup_firstWaves hkeeps)
  constructor
  · intro hapart
    rw [isApartFrom, PojoGraph.isApartFrom_iff] at hapart
    rw [queue_eq_firstWaves hkeeps] at hpending
    obtain ⟨n, hn, hwave⟩ := mem_firstWaves_iff.mp hpending
    obtain ⟨root, hroot, hmem⟩ := mem_waves_iff.mp hwave
    obtain ⟨schema, hschema, rfl⟩ := mem_roots.mp hroot
    have hcomes : course.ComesFrom schema pending :=
      (comesFrom_iff hkeeps hroot).mpr (mem_firstWaves_iff.mpr ⟨n, hn, hmem⟩)
    have hall : schema ∈ before ++ extras ++ after := hschemas' ▸ List.mem_of_mem_filter hschema
    have hextra : schema ∉ extras := fun hextra =>
      hapart pending ((mem_firstWaves_rootsOf_iff hschemas' hkeeps).mpr ⟨schema, hextra, hcomes⟩) rfl
    refine ⟨schema, ?_, hcomes⟩
    simp only [List.mem_append] at hall ⊢
    tauto
  · rintro ⟨schema, hschema, hcomes⟩
    obtain ⟨n, hn, hmem⟩ := mem_firstWaves_iff.mp ((comesFrom_iff hkeeps hcomes.1).mp hcomes)
    rw [hroots] at hnodup
    rw [isApartFrom]
    rw [hroots] at hn ⊢
    refine isApartFrom_of_mem_firstWaves hnodup (mem_firstWaves_iff.mpr ⟨n, hn, ?_⟩)
    refine mem_waves_iff.mpr ⟨_, ?_, hmem⟩
    rw [← rootsOf_append]
    exact mem_rootsOf_of_mem_roots hschema hcomes.1

end Course

/-! ## The part of a run -/

section

variable (course : Course settings isLoaded documents') (hkeeps : course.KeepsNames)
  (hschemas : documents.flatMap (·.schemas) = before ++ after)
  (hschemas' : documents'.flatMap (·.schemas) = before ++ extras ++ after)
  (hrefers : ∀ extra ∈ extras, ∀ pending, course.ComesFrom extra pending →
    ∀ schema ∈ before ++ after, ∀ reference ∈ schema.2.references,
      (settings.referenceName reference).key ≠ pending.name.key)

include hkeeps hschemas hschemas' hrefers

/-- A run over some of the schemas resolves to its part of what the run resolves to. -/
theorem resolveDocuments_part : ∃ warnings others : List Warning,
    resolveDocuments settings isLoaded documents'
        = .ok (course.exclusion, ⟨course.final.entries, warnings⟩)
      ∧ resolveDocuments settings isLoaded documents = .ok (course.exclusion,
        ⟨part (course.isApartFrom extras) course.final.entries, others⟩)
      ∧ (∀ resolved ∈ part (course.isApartFrom extras) course.final.entries,
        resolved.Within (Owns (course.isApartFrom extras)))
      ∧ others.Sublist warnings := by
  have hroots := course.roots_eq_rootsOf hschemas'
  have hscope : ∀ root ∈ rootsOf settings course.exclusion before
        ++ rootsOf settings course.exclusion after,
      root.schema.RefersWithin settings (Owns (course.isApartFrom extras)) := by
    intro root hroot reference hreference
    rw [← rootsOf_append] at hroot
    obtain ⟨schema, hschema, -, rfl⟩ := mem_rootsOf_iff.mp hroot
    refine isApartFrom_iff.mpr fun pending hpending heq => ?_
    obtain ⟨extra, hextra, hcomes⟩ :=
      (Course.mem_firstWaves_rootsOf_iff hschemas' hkeeps).mp hpending
    exact hrefers extra hextra pending hcomes schema hschema reference hreference heq.symm
  have hsublist : (includedSchemas course.exclusion documents).Sublist
      (includedSchemas course.exclusion documents') := by
    rw [includedSchemas, includedSchemas, hschemas, hschemas']
    exact ((List.sublist_append_left before extras).append_right after).filter _
  have hincluded : rootsOf settings course.exclusion before ++ rootsOf settings course.exclusion after
      = (includedSchemas course.exclusion documents).map (Pending.ofSchema settings) := by
    rw [← rootsOf_append, includedSchemas, hschemas]
    rfl
  have hkeys : ((rootsOf settings course.exclusion before
      ++ rootsOf settings course.exclusion after).map (·.name.key)).Nodup := by
    refine course.nodup_keys_roots.sublist (List.Sublist.map _ ?_)
    rw [hincluded, course.roots_eq]
    exact hsublist.map _
  obtain ⟨log, warnings, hresolves⟩ := course.resolves
  have hresolve : (resolve settings (.ofPending course.roots) course.roots).2
      = .ok ⟨course.final.entries, warnings⟩ := congrArg (·.2) hresolves
  have hrun' := resolveDocuments_eq course.isExclusion course.loaded course.roots_eq
    course.nodup_keys_roots
  have hrun := resolveDocuments_eq course.isExclusion
    (unloadedReferences_of_sublist hsublist course.loaded) hincluded hkeys
  have hnodup := Course.KeepsNames.nodup_firstWaves hkeeps
  rw [hresolve] at hrun'
  unfold Course.isApartFrom at hscope ⊢
  rw [hroots] at hnodup hresolve hscope ⊢
  obtain ⟨⟨_, others⟩, hothers, rfl, hwithin, hwarnings⟩ := resolve_part hnodup hscope hresolve
  rw [hothers] at hrun
  exact ⟨warnings, others, hrun', hrun, hwithin, hwarnings⟩

/-- **A run over some of the schemas makes its part of the set**, if no name is numbered and none
of these schemas refers to what comes from the others. -/
theorem mapDocuments_part : ∃ set set', (mapDocuments settings isLoaded documents).2 = .ok set
    ∧ (mapDocuments settings isLoaded documents').2 = .ok set'
    ∧ (∀ pojo ∈ course.pojos, course.isApartFrom extras pojo.name.key = true
      ↔ ∃ schema ∈ before ++ after, ∃ pending,
        course.boundTo? pojo.name = some pending ∧ course.ComesFrom schema pending)
    ∧ set'.pojos = course.pojos.map (·.rename settings.mapName)
    ∧ set.pojos = (course.pojos.filter fun pojo => course.isApartFrom extras pojo.name.key).map
      (·.rename settings.mapName)
    ∧ set.warnings.Sublist set'.warnings := by
  obtain ⟨warnings, others, hrun', hrun, hwithin, hwarnings⟩ :=
    resolveDocuments_part course hkeeps hschemas hschemas' hrefers
  refine ⟨_, _, by rw [snd_mapDocuments, hrun]; rfl, by rw [snd_mapDocuments, hrun']; rfl,
    ?_, rfl, ?_, ?_⟩
  · intro pojo hpojo
    obtain ⟨pending, hbound⟩ := Course.exists_boundTo?_of_mem_pojos hpojo
    obtain ⟨hqueue, hkey⟩ := Course.boundTo?_eq_some_iff.mp hbound
    rw [← hkey, Course.isApartFrom_iff_comesFrom hschemas' hkeeps hqueue]
    refine exists_congr fun schema => and_congr_right fun _ => ?_
    rw [hbound]
    simp
  · exact congrArg (List.map _) (pojos_describe_part hwithin settings.referenceInlining)
  · exact hwarnings.append (warnings_ofEntries_part hwithin settings course.exclusion)

end

end

/-- **Runs are local**: a schema that is added to a document, wherever it stands, changes nothing
about the types of the others, as long as these refer to nothing that comes from it and no name is
numbered. If the run with the extra schema succeeds, so does the run without it; its types are those
whose schemas do not come from the extra one, in their order and as they are, and all its warnings
are among those of the other run. -/
theorem runs_are_local {settings : Settings} {document document' : Document}
    {before after : List (String × Schema)} {extra : String × Schema}
    (hschemas : document.schemas = before ++ after)
    (hschemas' : document'.schemas = before ++ extra :: after) {set' : PojoSet}
    (h : (mapDocument settings document').2 = .ok set')
    (course : Course settings (fun _ => false) [document']) (hkeeps : course.KeepsNames)
    (hrefers : ∀ pending, course.ComesFrom extra pending → ∀ reference ∈ document.references,
      (settings.referenceName reference).key ≠ pending.name.key) :
    ∃ set, (mapDocument settings document).2 = .ok set
      ∧ ∃ isLocal : Pojo → Bool,
        (∀ pojo ∈ course.pojos, isLocal pojo = true ↔ ∃ schema ∈ document.schemas, ∃ pending,
          course.boundTo? pojo.name = some pending ∧ course.ComesFrom schema pending)
        ∧ set'.pojos = course.pojos.map (·.rename settings.mapName)
        ∧ set.pojos = (course.pojos.filter isLocal).map (·.rename settings.mapName)
        ∧ set.warnings.Sublist set'.warnings := by
  have hbare : [document].flatMap (·.schemas) = before ++ after := by
    rw [List.flatMap_singleton, hschemas]
  have hextra : [document'].flatMap (·.schemas) = before ++ [extra] ++ after := by
    rw [List.flatMap_singleton, hschemas', List.append_assoc, List.singleton_append]
  have hall : ∀ other ∈ [extra], ∀ pending, course.ComesFrom other pending →
      ∀ schema ∈ before ++ after, ∀ reference ∈ schema.2.references,
        (settings.referenceName reference).key ≠ pending.name.key := by
    intro other hother pending hcomes schema hschema reference hreference
    obtain rfl := List.mem_singleton.mp hother
    refine hrefers pending hcomes reference (List.mem_flatMap.mpr ⟨schema, ?_, hreference⟩)
    rwa [hschemas]
  obtain ⟨set, other, hset, hother, hlocal, hpojos', hpojos, hwarnings⟩ :=
    mapDocuments_part course hkeeps hbare hextra hall
  obtain rfl : set' = other := Except.ok.inj (h.symm.trans hother)
  rw [← hschemas] at hlocal
  exact ⟨set, hset, _, hlocal, hpojos', hpojos, hwarnings⟩

/-- The pets with an owner, and toys among them with a maker and the same keys. -/
def petsAndToys : Document :=
  .ofSchemas
    (ownedPets.schemas.take 1 ++ ("Toy", .inline { properties :=
      [("key", .ref "#/components/schemas/Key"),
        ("maker", .inline { properties := [("key", .ref "#/components/schemas/Key")] })] })
      :: ownedPets.schemas.drop 1)

/-- The toys can be left out. -/
theorem runs_are_local_for_toys :
    ∃ set', (mapDocument {} petsAndToys).2 = .ok set'
      ∧ set'.pojos.map (·.name.raw) = ["Dog", "Toy", "Pet", "ToyMaker", "PetOwner"]
      ∧ ∃ course : Course {} (fun _ => false) [petsAndToys],
        ∃ set, (mapDocument {} ownedPets).2 = .ok set
          ∧ ∃ isLocal : Pojo → Bool,
            (∀ pojo ∈ course.pojos, isLocal pojo = true ↔ ∃ schema ∈ ownedPets.schemas, ∃ pending,
              course.boundTo? pojo.name = some pending ∧ course.ComesFrom schema pending)
            ∧ set'.pojos = course.pojos.map (·.rename (Settings.mapName {}))
            ∧ set.pojos = (course.pojos.filter isLocal).map (·.rename (Settings.mapName {}))
            ∧ set.warnings.Sublist set'.warnings := by
  obtain ⟨set', hset', hnames⟩ := exists_ok_of_any_toOption
    (show ((mapDocument {} petsAndToys).2.toOption.any fun set => decide
      (set.pojos.map (·.name.raw) = ["Dog", "Toy", "Pet", "ToyMaker", "PetOwner"])) = true
      by decide +kernel)
  obtain ⟨course, -⟩ := exists_course hset'
  have hexclusion : { patterns := [] } = course.exclusion := Except.ok.inj course.isExclusion
  have hroots : course.roots = petsAndToys.schemas.map (Pending.ofSchema {}) := by
    rw [course.roots_eq, ← hexclusion]
    rfl
  have hkeeps : course.KeepsNames := by
    rw [Course.KeepsNames, course.derivedNames_eq, hroots, Registry.Grants]
    decide +kernel
  refine ⟨set', hset', of_decide_eq_true hnames, course,
    runs_are_local rfl rfl hset' course hkeeps ?_⟩
  intro pending hcomes
  rw [Course.comesFrom_iff hkeeps hcomes.1, hroots] at hcomes
  revert pending
  decide +kernel

end PojoGraph
