import PojoGraph.Proofs.Extraction.Sweep
import PojoGraph.Proofs.Run.Documents
import PojoGraph.Proofs.Run.Provenance

/-!
# Runs over schemas made of properties

An object that is written in place at a property can be made a schema of its own, with a reference
in its place, without any effect on a run, as long as no name is numbered.

## Main definitions

* `Schema.StaysWithin` — all references of a schema lead into documents of the run.
* `Extraction.IsIncluded` — neither the schema nor the object is excluded.

## Main statements

* `mapDocuments_of_alike` — runs over schemas of which two are alike.
* `extraction_is_immaterial` — **making an object a schema of its own changes nothing**.
-/

namespace PojoGraph

/-! ## References -/

/-- All references of the schema lead into documents of the run. -/
def Schema.StaysWithin (isLoaded : String → Bool) (schema : Schema) : Prop :=
  ∀ reference ∈ schema.references, ∀ path, refFile reference = some path → isLoaded path = true

theorem unloadedReferences_eq_nil_iff {isLoaded : String → Bool}
    {schemas : List (String × Schema)} : unloadedReferences isLoaded schemas = []
      ↔ ∀ schema ∈ schemas, schema.2.StaysWithin isLoaded := by
  constructor
  · intro h schema hschema reference hreference path hpath
    exact isLoaded_of_unloadedReferences h hschema hreference hpath
  · intro h
    rw [List.eq_nil_iff_forall_not_mem]
    intro fault hfault
    obtain ⟨schema, hschema, reference, hreference, path, hpath, hloaded, -⟩ :=
      mem_unloadedReferences_iff.mp hfault
    rw [h schema hschema reference hreference path hpath] at hloaded
    cases hloaded

/-- The references of a schema with the object in place are those of the schema with a reference
and those of the object, but for that reference. -/
theorem Extraction.staysWithin_iff (e : Extraction) (isLoaded : String → Bool) :
    e.nesting.2.StaysWithin isLoaded
      ↔ e.referring.2.StaysWithin isLoaded ∧ e.extracted.2.StaysWithin isLoaded := by
  have hreferences : ∀ schema,
      (Schema.inline (e.keywords.withProperties (e.properties schema))).references
        = (e.before.map (·.2)).flatMap Schema.references ++ (schema.references
          ++ (Schema.inline (e.keywords.withProperties e.after)).references) := by
    intro schema
    rw [Schema.references_inline, Schema.references_inline]
    simp [Keywords.children, Keywords.withProperties, properties, Keywords.mappingTargets]
  have hreference : ∀ path, refFile e.reference = some path → isLoaded path = true := by
    intro path h
    rw [refFile_reference] at h
    cases h
  simp only [nesting, referring, extracted, Schema.StaysWithin, hreferences, Schema.references_ref,
    List.forall_mem_append, List.forall_mem_singleton]
  tauto

/-! ## Runs over schemas that are alike -/

section

variable {settings : Settings} {isLoaded : String → Bool} {documents documents' : List Document}

/-- What resolves to the same but for descriptions that are passed on anyway makes the same set. -/
theorem Resolution.toSet_perm {given : List Described} {resolution resolution' : Resolution}
    (hsettled : AreSettled resolution.entries) (hsettled' : AreSettled resolution'.entries)
    (hgiven : ∀ described ∈ given, ∃ pojo, .pojo pojo ∈ resolution.entries
      ∧ pojo.name = described.name ∧ pojo.description = some described.description)
    (hgiven' : ∀ described ∈ given, ∃ pojo, .pojo pojo ∈ resolution'.entries
      ∧ pojo.name = described.name ∧ pojo.description = some described.description)
    (hentries : (resolution.entries.map (Resolved.revise (.sequence Revision.describe given))).Perm
      (resolution'.entries.map (Resolved.revise (.sequence Revision.describe given))))
    (hwarnings : resolution.warnings.Perm resolution'.warnings) (exclusion : Exclusion) :
    (resolution.toSet settings exclusion).pojos.Perm (resolution'.toSet settings exclusion).pojos
      ∧ (resolution.toSet settings exclusion).warnings.Perm
        (resolution'.toSet settings exclusion).warnings := by
  have hrevised := hsettled.describe given
  rw [toSet, toSet, ← ofEntries_described hsettled hgiven, ← ofEntries_described hsettled' hgiven']
  exact ⟨pojos_ofEntries_of_perm hrevised hentries settings exclusion,
    hwarnings.append (warnings_ofEntries_of_perm hrevised hentries settings exclusion)⟩

/-- **Runs over schemas of which two are alike make the same set**, up to order, if no name is
numbered and if they are alike but for descriptions that are passed on anyway. -/
theorem mapDocuments_of_alike (course : Course settings isLoaded documents)
    {roots : List Pending}
    (hroots : roots = (includedSchemas course.exclusion documents').map (Pending.ofSchema settings))
    (hloaded : unloadedReferences isLoaded (includedSchemas course.exclusion documents') = [])
    {given : List Described} {pending pending' : Pending} {found : List Pending}
    (halike : pending.Alike settings (.sequence Revision.describe given) pending')
    {n n' : Nat} (hwaves : DistinctWaves course.roots n)
    (hfound : (firstWaves course.roots n).Perm (pending :: found))
    (hwaves' : DistinctWaves roots n') (hfound' : (firstWaves roots n').Perm (pending' :: found))
    (hgiven : ∀ {roots : List Pending} {n : Nat} {resolution : Resolution}, DistinctWaves roots n →
      found ⊆ firstWaves roots n →
      (resolve settings (.ofPending roots) roots).2 = .ok resolution →
      ∀ described ∈ given, ∃ pojo, .pojo pojo ∈ resolution.entries
        ∧ pojo.name = described.name ∧ pojo.description = some described.description) :
    ∃ set set', (mapDocuments settings isLoaded documents).2 = .ok set
      ∧ (mapDocuments settings isLoaded documents').2 = .ok set'
      ∧ set.pojos.Perm set'.pojos ∧ set.warnings.Perm set'.warnings := by
  obtain ⟨log, warnings, hresolves⟩ := course.resolves
  have hresolve : (resolve settings (.ofPending course.roots) course.roots).2
      = .ok ⟨course.final.entries, warnings⟩ := congrArg (·.2) hresolves
  obtain ⟨resolution', hresolve', hentries, hwarnings⟩ := resolve_of_alike
    (Revision.isFaithful_describe _ given) halike hwaves hfound hwaves' hfound' hresolve
  have hrun := resolveDocuments_eq course.isExclusion course.loaded course.roots_eq
    course.nodup_keys_roots
  have hrun' := resolveDocuments_eq course.isExclusion hloaded hroots hwaves'.nodup_roots
  rw [hresolve] at hrun
  rw [hresolve'] at hrun'
  have hset' : (mapDocuments settings isLoaded documents').2
      = .ok (resolution'.toSet settings course.exclusion) := by
    rw [snd_mapDocuments, hrun']
    rfl
  have hsettled' : AreSettled resolution'.entries := by
    obtain ⟨course', -⟩ := exists_course hset'
    have hexclusion : course'.exclusion = course.exclusion :=
      Except.ok.inj (course'.isExclusion.symm.trans course.isExclusion)
    have hroots' : course'.roots = roots := by rw [course'.roots_eq, hexclusion, hroots]
    obtain ⟨log', warnings', hresolves'⟩ := course'.resolves
    rw [hroots', Prod.ext_iff, hresolve'] at hresolves'
    rw [Except.ok.inj hresolves'.2]
    exact course'.areSettled
  refine ⟨_, _, by rw [snd_mapDocuments, hrun]; rfl, hset', Resolution.toSet_perm course.areSettled
    hsettled' (hgiven hwaves ?_ hresolve) (hgiven hwaves' ?_ hresolve') hentries hwarnings _⟩
  · exact fun _ hmem => hfound.mem_iff.mpr (List.mem_cons_of_mem _ hmem)
  · exact fun _ hmem => hfound'.mem_iff.mpr (List.mem_cons_of_mem _ hmem)

/-- The roots of a run are the schemas that the patterns of its settings leave. -/
theorem Course.roots_eq_of_ofPatterns (course : Course settings isLoaded documents)
    {exclusion : Exclusion} (h : Exclusion.ofPatterns settings.excludedSchemas = .ok exclusion) :
    course.roots = (includedSchemas exclusion documents).map (Pending.ofSchema settings) := by
  rw [course.roots_eq, Except.ok.inj (course.isExclusion.symm.trans h)]

/-- In a run in which no name is numbered all waves end, with different names. -/
theorem Course.KeepsNames.distinctWaves {course : Course settings isLoaded documents}
    (hkeeps : course.KeepsNames) : DistinctWaves course.roots (Sweep.enough course.roots) where
  eq_nil := waves_roots_eq_nil hkeeps
  nodup := Sweep.nodup_firstWaves_of_le (Nat.le_succ _) hkeeps.nodup_firstWaves

end

/-! ## With the object in place, and with a reference -/

namespace Extraction

/-- The exclusion leaves both the schema and the object as a schema of its own: both are roots of
their runs. -/
structure IsIncluded (e : Extraction) (exclusion : Exclusion) : Prop where
  owner : exclusion.excludes e.owner = false
  key : exclusion.excludes e.key = false

section

variable {e : Extraction} {settings : Settings} {isLoaded : String → Bool}
  {documents documents' : List Document} {others : List (String × Schema)}
  {exclusion : Exclusion} (hincluded : e.IsIncluded exclusion)
  (hschemas : (documents.flatMap (·.schemas)).Perm (e.nesting :: others))
  (hschemas' : (documents'.flatMap (·.schemas)).Perm (e.referring :: e.extracted :: others))

include hincluded

include hschemas in
theorem includedSchemas_nesting : (includedSchemas exclusion documents).Perm
    (e.nesting :: others.filter fun schema => !exclusion.excludes schema.1) :=
  (hschemas.filter _).trans (.of_eq (by simp [nesting, hincluded.owner]))

include hschemas' in
theorem includedSchemas_referring : (includedSchemas exclusion documents').Perm
    (e.referring :: e.extracted :: others.filter fun schema => !exclusion.excludes schema.1) :=
  (hschemas'.filter _).trans (.of_eq (by
    simp [referring, extracted, hincluded.owner, hincluded.key]))

include hschemas hschemas'

/-- The references lead into documents of the run in both cases or in neither. -/
theorem unloadedReferences_eq_nil_comm :
    unloadedReferences isLoaded (includedSchemas exclusion documents) = []
      ↔ unloadedReferences isLoaded (includedSchemas exclusion documents') = [] := by
  simp only [unloadedReferences_eq_nil_iff, (includedSchemas_nesting hincluded hschemas).mem_iff,
    (includedSchemas_referring hincluded hschemas').mem_iff, List.forall_mem_cons,
    e.staysWithin_iff, and_assoc]

end

section

variable (e : Extraction) {settings : Settings} {isLoaded : String → Bool}
  {documents documents' : List Document} {others : List (String × Schema)}
  (hschemas : (documents.flatMap (·.schemas)).Perm (e.nesting :: others))
  (hschemas' : (documents'.flatMap (·.schemas)).Perm (e.referring :: e.extracted :: others))
  (hincluded : ∀ exclusion, Exclusion.ofPatterns settings.excludedSchemas = .ok exclusion →
    e.IsIncluded exclusion)

include hschemas hschemas' hincluded

/-- A run with the object in place gives the same set as one with a reference. -/
theorem mapDocuments_nesting (course : Course settings isLoaded documents)
    (hkeeps : course.KeepsNames) :
    ∃ set set', (mapDocuments settings isLoaded documents).2 = .ok set
      ∧ (mapDocuments settings isLoaded documents').2 = .ok set'
      ∧ set.pojos.Perm set'.pojos ∧ set.warnings.Perm set'.warnings := by
  have hleft := hincluded _ course.isExclusion
  have hroots := (includedSchemas_nesting hleft hschemas).map (Pending.ofSchema settings)
  have hroots' := (includedSchemas_referring hleft hschemas').map (Pending.ofSchema settings)
  rw [← course.roots_eq] at hroots
  obtain ⟨found, hextracted, halike, hwaves, hwaves', hfound, hfound'⟩ :=
    e.exists_found hroots hroots' (.inl hkeeps.distinctWaves)
  have hloaded := (unloadedReferences_eq_nil_comm hleft hschemas hschemas').mp course.loaded
  exact mapDocuments_of_alike course rfl hloaded halike hwaves hfound hwaves' hfound'
    fun hdistinct hsubset => e.exists_pojo hdistinct (hsubset hextracted)

/-- A run with a reference gives the same set as one with the object in place. -/
theorem mapDocuments_referring (course : Course settings isLoaded documents')
    (hkeeps : course.KeepsNames) :
    ∃ set set', (mapDocuments settings isLoaded documents').2 = .ok set
      ∧ (mapDocuments settings isLoaded documents).2 = .ok set'
      ∧ set.pojos.Perm set'.pojos ∧ set.warnings.Perm set'.warnings := by
  have hleft := hincluded _ course.isExclusion
  have hroots := (includedSchemas_nesting hleft hschemas).map (Pending.ofSchema settings)
  have hroots' := (includedSchemas_referring hleft hschemas').map (Pending.ofSchema settings)
  rw [← course.roots_eq] at hroots'
  obtain ⟨found, hextracted, halike, hwaves, hwaves', hfound, hfound'⟩ :=
    e.exists_found hroots hroots' (.inr hkeeps.distinctWaves)
  have hloaded := (unloadedReferences_eq_nil_comm hleft hschemas hschemas').mpr course.loaded
  exact mapDocuments_of_alike course rfl hloaded halike.symm hwaves' hfound' hwaves hfound
    fun hdistinct hsubset => e.exists_pojo hdistinct (hsubset hextracted)

end

end Extraction

/-- **Making an object a schema of its own changes nothing**: a root of the run may have an object
written in place at a property, or have a reference there to a schema made of the object, under the
name that the object gets where it is found, at the end of the document. If that name is not
excluded and no name is numbered in either run, as far as it succeeds, then both succeed or both
fail, and give the same types and the same warnings up to order. -/
theorem extraction_is_immaterial (e : Extraction) {settings : Settings}
    {document document' : Document} {before after : List (String × Schema)}
    (hschemas : document.schemas = before ++ e.nesting :: after)
    (hschemas' : document'.schemas = before ++ e.referring :: after ++ [e.extracted])
    (hincluded : ∀ exclusion, Exclusion.ofPatterns settings.excludedSchemas = .ok exclusion →
      e.IsIncluded exclusion)
    (hkeeps : ∀ course : Course settings (fun _ => false) [document], course.KeepsNames)
    (hkeeps' : ∀ course : Course settings (fun _ => false) [document'], course.KeepsNames) :
    ((∃ set, (mapDocument settings document).2 = .ok set)
        ↔ ∃ set', (mapDocument settings document').2 = .ok set')
      ∧ ∀ set set', (mapDocument settings document).2 = .ok set →
        (mapDocument settings document').2 = .ok set' →
          set.pojos.Perm set'.pojos ∧ set.warnings.Perm set'.warnings := by
  have hperm : ([document].flatMap (·.schemas)).Perm (e.nesting :: (before ++ after)) := by
    rw [List.flatMap_singleton, hschemas]
    exact List.perm_middle
  have hperm' : ([document'].flatMap (·.schemas)).Perm
      (e.referring :: e.extracted :: (before ++ after)) := by
    rw [List.flatMap_singleton, hschemas']
    refine (List.perm_append_singleton _ _).trans ?_
    exact (List.perm_middle.cons _).trans (.swap _ _ _)
  have hforward : ∀ {set}, (mapDocument settings document).2 = .ok set →
      ∃ set', (mapDocument settings document').2 = .ok set'
        ∧ set.pojos.Perm set'.pojos ∧ set.warnings.Perm set'.warnings := by
    intro set hset
    obtain ⟨course, -⟩ := exists_course hset
    obtain ⟨first, set', hfirst, hset', hsame⟩ :=
      e.mapDocuments_nesting hperm hperm' hincluded course (hkeeps course)
    obtain rfl : set = first := Except.ok.inj (hset.symm.trans hfirst)
    exact ⟨set', hset', hsame⟩
  refine ⟨⟨?_, ?_⟩, ?_⟩
  · rintro ⟨set, hset⟩
    obtain ⟨set', hset', -⟩ := hforward hset
    exact ⟨set', hset'⟩
  · rintro ⟨set', hset'⟩
    obtain ⟨course, -⟩ := exists_course hset'
    obtain ⟨-, set, -, hset, -⟩ :=
      e.mapDocuments_referring hperm hperm' hincluded course (hkeeps' course)
    exact ⟨set, hset⟩
  · intro set set' hset hset'
    obtain ⟨other, hother, hsame⟩ := hforward hset
    obtain rfl : set' = other := Except.ok.inj (hset'.symm.trans hother)
    exact hsame

/-- The pets with an owner that has a description. -/
def petOwner : Extraction where
  owner := "Pet"
  keywords := {}
  before := [("key", .ref "#/components/schemas/Key")]
  property := "owner"
  inner :=
    { description := some "Who keeps it."
      properties := [("key", .ref "#/components/schemas/Key")] }
  after := []
  isAscii_owner := by decide
  isAscii_property := by decide
  isArrayShaped := rfl
  isExtractable := ⟨rfl, rfl, rfl, rfl⟩

/-- Dogs composed of these pets. -/
def nestedOwner : Document :=
  .ofSchemas (ownedPets.schemas.take 1 ++ petOwner.nesting :: ownedPets.schemas.drop 2)

/-- The same with the owner made a schema of its own. -/
def referredOwner : Document :=
  .ofSchemas (ownedPets.schemas.take 1 ++ petOwner.referring :: ownedPets.schemas.drop 2
    ++ [petOwner.extracted])

/-- Making the owner a schema of its own changes nothing. -/
theorem extraction_is_immaterial_for_owners :
    ∃ set set', (mapDocument {} nestedOwner).2 = .ok set
      ∧ set.pojos.map (·.name.raw) = ["Dog", "Pet", "PetOwner"]
      ∧ (mapDocument {} referredOwner).2 = .ok set'
      ∧ set.pojos.Perm set'.pojos ∧ set.warnings.Perm set'.warnings := by
  obtain ⟨set, hset, hnames⟩ := exists_ok_of_any_toOption
    (show ((mapDocument {} nestedOwner).2.toOption.any fun set =>
      decide (set.pojos.map (·.name.raw) = ["Dog", "Pet", "PetOwner"])) = true
      by decide +kernel)
  have hexclusion : Exclusion.ofPatterns ({} : Settings).excludedSchemas
      = .ok { patterns := [] } := rfl
  have hincluded : ∀ exclusion, Exclusion.ofPatterns ({} : Settings).excludedSchemas
      = .ok exclusion → petOwner.IsIncluded exclusion :=
    fun exclusion h => Except.ok.inj (hexclusion.symm.trans h) ▸ ⟨rfl, rfl⟩
  have hkeeps : ∀ course : Course {} (fun _ => false) [nestedOwner], course.KeepsNames := by
    intro course
    rw [Course.KeepsNames, course.derivedNames_eq, course.roots_eq_of_ofPatterns hexclusion,
      Registry.Grants]
    decide +kernel
  have hkeeps' : ∀ course : Course {} (fun _ => false) [referredOwner], course.KeepsNames := by
    intro course
    rw [Course.KeepsNames, course.derivedNames_eq, course.roots_eq_of_ofPatterns hexclusion,
      Registry.Grants]
    decide +kernel
  obtain ⟨hsucceed, hsame⟩ :=
    extraction_is_immaterial petOwner rfl rfl hincluded hkeeps hkeeps'
  obtain ⟨set', hset'⟩ := hsucceed.mp ⟨set, hset⟩
  exact ⟨set, set', hset, of_decide_eq_true hnames, hset', hsame set set' hset hset'⟩

end PojoGraph
