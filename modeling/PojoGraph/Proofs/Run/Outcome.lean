import PojoGraph.Proofs.Run.Mappings
import PojoGraph.Proofs.Sweep.Warnings

/-!
# What a run comes to

A run resolves the schemas of its documents, and then makes the final set of them. Only the first
part can fail. It does not depend on how references are inlined or names mapped; and for schemas
with different type names it comes down to their resolution, so that a course determines the whole
set of its run, warnings included.

## Main definitions

* `resolveDocuments` — a run up to the resolution of its schemas.
* `Resolution.toSet` — the final set of resolved schemas.

## Main statements

* `snd_mapDocuments` — a run ends with the final set of what it resolves to.
* `claimRoots_eq` — schemas with different type names are claimed without faults.
* `Course.mapDocuments_eq` — a course determines the set of its run.
-/

namespace PojoGraph

/-! ## Two parts of a run -/

/-- The schemas of a run resolved, together with the exclusion of the run. -/
def resolveDocuments (settings : Settings) (isLoaded : String → Bool) (documents : List Document) :
    Except RunError (Exclusion × Resolution) :=
  match Exclusion.ofPatterns settings.excludedSchemas with
  | .error error => .error (.invalidPattern error)
  | .ok exclusion =>
    let schemas := includedSchemas exclusion documents
    let roots := claimRoots settings schemas
    match Failure.of? (unloadedReferences isLoaded schemas ++ roots.faults) with
    | some failure => .error (.failure failure)
    | none =>
      match (resolve settings roots.registry roots.pending).2 with
      | .ok resolution => .ok (exclusion, resolution)
      | .error failure => .error (.failure failure)

/-- The final set of resolved schemas, with all warnings. -/
def Resolution.toSet (settings : Settings) (exclusion : Exclusion) (resolution : Resolution) :
    PojoSet :=
  let set := PojoSet.ofEntries settings exclusion resolution.entries
  { set with warnings := resolution.warnings ++ set.warnings }

/-- **A run ends with the final set of what it resolves to**, or fails as the resolution does. -/
theorem snd_mapDocuments (settings : Settings) (isLoaded : String → Bool)
    (documents : List Document) :
    (mapDocuments settings isLoaded documents).2
      = (resolveDocuments settings isLoaded documents).map fun resolved =>
        resolved.2.toSet settings resolved.1 := by
  rw [mapDocuments, resolveDocuments]
  cases Exclusion.ofPatterns settings.excludedSchemas with
  | error error => rfl
  | ok exclusion =>
    dsimp only
    generalize claimRoots settings (includedSchemas exclusion documents) = roots
    cases Failure.of? (unloadedReferences isLoaded (includedSchemas exclusion documents)
        ++ roots.faults) with
    | some failure => rfl
    | none =>
      dsimp only
      rw [mapPending]
      cases resolve settings roots.registry roots.pending with
      | mk log result => cases result <;> rfl

/-- The way in which references are inlined does not matter to resolution. -/
theorem resolveDocuments_inlining (settings : Settings) (inlining : ReferenceInlining)
    (isLoaded : String → Bool) (documents : List Document) :
    resolveDocuments { settings with referenceInlining := inlining } isLoaded documents
      = resolveDocuments settings isLoaded documents := by
  have hroots : claimRoots { settings with referenceInlining := inlining }
      = claimRoots settings := rfl
  have hresolve : ∀ registry roots, resolve { settings with referenceInlining := inlining }
      registry roots = resolve settings registry roots := by
    intro registry roots
    rw [← resolve_classifying settings, ← resolve_classifying]
    rfl
  rw [resolveDocuments, resolveDocuments, hroots]
  simp only [hresolve]

/-! ## Schemas with different names -/

/-- **Schemas with different type names are claimed without faults**, each under its own name. -/
theorem claimRoots_eq {settings : Settings} {schemas : List (String × Schema)}
    (h : ((schemas.map (Pending.ofSchema settings)).map (·.name.key)).Nodup) :
    (claimRoots settings schemas).faults = []
      ∧ (claimRoots settings schemas).pending = schemas.map (Pending.ofSchema settings)
      ∧ (claimRoots settings schemas).registry
        = .ofPending (schemas.map (Pending.ofSchema settings)) := by
  suffices hfaults : (claimRoots settings schemas).faults = [] from
    ⟨hfaults, (accepts_claimRoots hfaults).pending, (accepts_claimRoots hfaults).registry⟩
  induction schemas using List.reverseRecOn with
  | nil => rfl
  | append_singleton schemas schema ih =>
    rw [List.map_append, List.map_append, List.nodup_append] at h
    obtain ⟨hbefore, -, hnew⟩ := h
    have hlookup : (claimRoots settings schemas).declared.lookup?
        (settings.pojoName schema.1).key = none := by
      rw [Dictionary.lookup?_eq_none_iff, (accepts_claimRoots (ih hbefore)).declared]
      intro hmem
      exact hnew _ hmem _ (List.mem_singleton_self _) rfl
    rw [claimRoots_concat, Roots.declare]
    simp only [hlookup]
    exact ih hbefore

/-- Where the checks before a run pass, it comes down to the resolution of its schemas. -/
theorem resolveDocuments_eq {settings : Settings} {isLoaded : String → Bool}
    {documents : List Document} {exclusion : Exclusion}
    (hexclusion : Exclusion.ofPatterns settings.excludedSchemas = .ok exclusion)
    (hloaded : unloadedReferences isLoaded (includedSchemas exclusion documents) = [])
    {roots : List Pending}
    (hroots : roots = (includedSchemas exclusion documents).map (Pending.ofSchema settings))
    (hnodup : (roots.map (·.name.key)).Nodup) :
    resolveDocuments settings isLoaded documents =
      match (resolve settings (.ofPending roots) roots).2 with
      | .ok resolution => .ok (exclusion, resolution)
      | .error failure => .error (.failure failure) := by
  subst hroots
  obtain ⟨hfaults, hpending, hregistry⟩ := claimRoots_eq hnodup
  rw [resolveDocuments, hexclusion]
  simp only [hloaded, hfaults, hpending, hregistry]
  rfl

/-! ## Courses -/

namespace Course

variable {settings : Settings} {isLoaded : String → Bool} {documents : List Document}
  (course : Course settings isLoaded documents)

theorem nodup_keys_roots : (course.roots.map (·.name.key)).Nodup := by
  have hqueue := course.nodup_keys_queue
  rw [queue_eq_append, List.map_append] at hqueue
  exact (List.nodup_append.mp hqueue).1

/-- A course resolves to the entries of its final table, with warnings of classification. -/
theorem resolveDocuments_eq : ∃ warnings : List Warning,
    (∀ warning ∈ warnings, warning.isOfClassification = true)
      ∧ resolveDocuments settings isLoaded documents
        = .ok (course.exclusion, ⟨course.final.entries, warnings⟩) := by
  obtain ⟨log, warnings, hresolve⟩ := course.resolves
  have hresult : (resolve settings (.ofPending course.roots) course.roots).2
      = .ok ⟨course.final.entries, warnings⟩ := congrArg (·.2) hresolve
  refine ⟨warnings, isOfClassification_resolve hresult, ?_⟩
  rw [PojoGraph.resolveDocuments_eq course.isExclusion course.loaded course.roots_eq
    course.nodup_keys_roots, hresolve]

/-- **A course determines the set of its run**: its types with names mapped, and the warnings of
classification, of inlining and of references. -/
theorem mapDocuments_eq : ∃ warnings : List Warning,
    (∀ warning ∈ warnings, warning.isOfClassification = true)
      ∧ (mapDocuments settings isLoaded documents).2 = .ok
        { pojos := course.pojos.map (·.rename settings.mapName)
          warnings := warnings
            ++ ((PojoSet.ofResolved settings.referenceInlining course.final.entries).warnings
              ++ danglingReferences course.exclusion course.pojos) } := by
  obtain ⟨warnings, hwarnings, hresolve⟩ := course.resolveDocuments_eq
  refine ⟨warnings, hwarnings, ?_⟩
  rw [snd_mapDocuments, hresolve]
  rfl

end Course

end PojoGraph
