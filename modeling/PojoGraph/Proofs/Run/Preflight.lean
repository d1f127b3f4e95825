import PojoGraph.Proofs.Lists.Repetitions
import PojoGraph.Proofs.Run.Documents
import PojoGraph.Proofs.Run.Outcome

/-!
# Before a run

A run is refused before anything is classified if a reference leads into a document outside it or
if two of its schemas have one type name. All that is wrong is reported at once: each reference
once, in the order in which references occur, and then each schema whose type name another before
it has, with the first that has it. Where nothing is wrong, the schemas begin the run as they
stand in the documents, each under the name made of its key.

## Main definitions

* `ListsOutside` — the references into documents outside the run, in order.
* `repeatedNames` — what is reported of schemas that share type names.
* `IsRefused` — a run that fails before anything is classified.
* `runOutcome` — how a run ends that has got to its resolution.

## Main statements

* `listsOutside_unloaded` — each unloaded reference is reported once, in order.
* `faults_claimRoots` — each repeated type name is reported, with its first schema.
* `preflight_exact` — when a run is refused, what is reported, and how it begins otherwise.
-/

namespace PojoGraph

/-! ## References into other documents -/

section

variable {isLoaded : String → Bool} {schemas : List (String × Schema)}

/-- A reference that leads into a document outside the run, with the document. -/
def outside? (isLoaded : String → Bool) (reference : String) : Option (String × String) :=
  match refFile reference with
  | some document => if isLoaded document then none else some (reference, document)
  | none => none

theorem outside?_eq_some_iff {reference : String} {entry : String × String} :
    outside? isLoaded reference = some entry
      ↔ reference = entry.1 ∧ refFile reference = some entry.2 ∧ isLoaded entry.2 = false := by
  obtain ⟨reference', document⟩ := entry
  rw [outside?]
  cases refFile reference with
  | none => simp
  | some document' =>
    cases hloaded : isLoaded document' with
    | true =>
      dsimp only
      rw [if_pos hloaded]
      constructor
      · intro h
        cases h
      · rintro ⟨-, hpath, hnot⟩
        rw [← Option.some.inj hpath, hloaded] at hnot
        cases hnot
    | false =>
      dsimp only
      rw [if_neg (Bool.not_eq_true _ ▸ hloaded)]
      constructor
      · intro h
        cases h
        exact ⟨rfl, rfl, hloaded⟩
      · rintro ⟨rfl, hpath, -⟩
        rw [Option.some.inj hpath]

/-- The entries are the references of schemas that lead into documents outside the run, with
these documents, each once and in the order in which the references occur first. -/
structure ListsOutside (isLoaded : String → Bool) (schemas : List (String × Schema))
    (entries : List (String × String)) : Prop where
  mem_iff : ∀ reference document, (reference, document) ∈ entries
    ↔ (∃ schema ∈ schemas, schema.2.Refers reference) ∧ refFile reference = some document
      ∧ isLoaded document = false
  ordered : entries.Pairwise fun entry entry' =>
    (schemas.flatMap (·.2.references)).idxOf entry.1
      < (schemas.flatMap (·.2.references)).idxOf entry'.1

/-- The references into documents outside the run, with these documents. -/
def outsideReferences (isLoaded : String → Bool) (schemas : List (String × Schema)) :
    List (String × String) :=
  ((schemas.flatMap (·.2.references)).filterMap (outside? isLoaded)).eraseDups

theorem listsOutside_outsideReferences :
    ListsOutside isLoaded schemas (outsideReferences isLoaded schemas) where
  mem_iff := by
    intro reference document
    rw [outsideReferences, List.mem_eraseDups, List.mem_filterMap]
    constructor
    · rintro ⟨reference', hreference, hsome⟩
      obtain ⟨rfl, hpath, hloaded⟩ := outside?_eq_some_iff.mp hsome
      obtain ⟨schema, hschema, hrefers⟩ := List.mem_flatMap.mp hreference
      exact ⟨⟨schema, hschema, Schema.mem_references_iff_refers.mp hrefers⟩, hpath, hloaded⟩
    · rintro ⟨⟨schema, hschema, hrefers⟩, hpath, hloaded⟩
      refine ⟨reference, List.mem_flatMap.mpr ⟨schema, hschema, ?_⟩, ?_⟩
      · exact Schema.mem_references_iff_refers.mpr hrefers
      · exact outside?_eq_some_iff.mpr ⟨rfl, hpath, hloaded⟩
  ordered := by
    have hinjective : ∀ c d entry, outside? isLoaded c = some entry →
        outside? isLoaded d = some entry → c = d := by
      intro c d entry hc hd
      exact (outside?_eq_some_iff.mp hc).1.trans (outside?_eq_some_iff.mp hd).1.symm
    have hself : ∀ entry ∈ outsideReferences isLoaded schemas,
        outside? isLoaded entry.1 = some entry := by
      intro entry hentry
      rw [outsideReferences, List.mem_eraseDups, List.mem_filterMap] at hentry
      obtain ⟨reference, -, hsome⟩ := hentry
      obtain ⟨rfl, -⟩ := outside?_eq_some_iff.mp hsome
      exact hsome
    refine (pairwise_idxOf_eraseDups _).imp_of_mem fun {entry entry'} hentry hentry' hlt => ?_
    exact idxOf_lt_of_filterMap hinjective (hself entry hentry) (hself entry' hentry') hlt

/-- **Each reference into a document outside the run is reported once**, in order. -/
theorem unloadedReferences_eq_map :
    unloadedReferences isLoaded schemas
      = (outsideReferences isLoaded schemas).map fun entry =>
        .unloadedDocument entry.1 entry.2 := by
  have hinjective : Function.Injective fun entry : String × String =>
      Fault.unloadedDocument entry.1 entry.2 := by
    rintro ⟨reference, document⟩ ⟨reference', document'⟩ h
    cases h
    rfl
  rw [outsideReferences, ← eraseDups_map hinjective, List.map_filterMap, unloadedReferences]
  congr 1
  refine List.filterMap_congr fun reference _ => ?_
  rw [outside?]
  cases refFile reference with
  | none => rfl
  | some document => dsimp only; split_ifs <;> rfl

end

/-! ## Repeated type names -/

section

variable {settings : Settings} {schemas : List (String × Schema)}

/-- The first of the schemas whose type name has the key. -/
def firstNamed? (settings : Settings) (schemas : List (String × Schema)) (key : String) :
    Option (String × Schema) :=
  schemas.find? fun schema => (settings.pojoName schema.1).key = key

/-- What is reported of the schemas whose type name a schema before them has, with the first that
has it. -/
def repeatedNames (settings : Settings) (schemas : List (String × Schema)) : List Fault :=
  schemas.zipIdx.filterMap fun (schema, place) =>
    (firstNamed? settings (schemas.take place) (settings.pojoName schema.1).key).map fun first =>
      .duplicateTypeName first.1 schema.1 (settings.pojoName schema.1)

theorem repeatedNames_concat (schema : String × Schema) :
    repeatedNames settings (schemas ++ [schema]) = repeatedNames settings schemas
      ++ ((firstNamed? settings schemas (settings.pojoName schema.1).key).map fun first =>
          .duplicateTypeName first.1 schema.1 (settings.pojoName schema.1)).toList := by
  rw [repeatedNames, repeatedNames, List.zipIdx_append, List.filterMap_append]
  congr 1
  · refine List.filterMap_congr fun entry hentry => ?_
    have hplace : entry.2 ≤ schemas.length := by
      have hlt := List.snd_lt_of_mem_zipIdx hentry
      omega
    dsimp only
    rw [List.take_append_of_le_length hplace]
  · simp only [List.zipIdx_singleton, Nat.zero_add, List.filterMap_cons, List.filterMap_nil,
      List.take_left]
    cases firstNamed? settings schemas (settings.pojoName schema.1).key <;> rfl

/-- The key of a type name is declared by the first schema that has it. -/
theorem lookup?_declared (key : String) :
    (claimRoots settings schemas).declared.lookup? key
      = (firstNamed? settings schemas key).map (·.1) := by
  -- Schemas are declared from the left, so the induction takes the last one off. It declares its
  -- key only if no schema before it does; in both cases the first schema with the key decides.
  induction schemas using List.reverseRecOn with
  | nil => rfl
  | append_singleton schemas schema ih =>
    have hlast : ((firstNamed? settings [schema] key).map (·.1))
        = List.lookup key [((settings.pojoName schema.1).key, schema.1)] := by
      by_cases hkey : key = (settings.pojoName schema.1).key
      · simp [firstNamed?, hkey]
      · have hne : (key == (settings.pojoName schema.1).key) = false := by simpa using hkey
        simp [firstNamed?, List.lookup_cons, hne, Ne.symm hkey]
    have hsplit : (firstNamed? settings (schemas ++ [schema]) key).map (·.1)
        = ((claimRoots settings schemas).declared.lookup? key).or
          (List.lookup key [((settings.pojoName schema.1).key, schema.1)]) := by
      rw [firstNamed?, List.find?_append, Option.map_or, ih, ← hlast, firstNamed?, firstNamed?]
    rw [claimRoots_concat, Roots.declare, hsplit]
    dsimp only
    cases hlookup : (claimRoots settings schemas).declared.lookup?
        (settings.pojoName schema.1).key with
    | some first =>
      by_cases hkey : key = (settings.pojoName schema.1).key
      · rw [hkey, hlookup, Option.some_or]
      · have hne : (key == (settings.pojoName schema.1).key) = false := by simpa using hkey
        simp [List.lookup_cons, hne]
    | none => exact List.lookup_append

/-- **Each repeated type name is reported**, with the first schema that has it. -/
theorem faults_claimRoots :
    (claimRoots settings schemas).faults = repeatedNames settings schemas := by
  induction schemas using List.reverseRecOn with
  | nil => rfl
  | append_singleton schemas schema ih =>
    rw [claimRoots_concat, repeatedNames_concat, Roots.declare, lookup?_declared, ← ih]
    cases firstNamed? settings schemas (settings.pojoName schema.1).key with
    | some first => rfl
    | none => exact (List.append_nil _).symm

end

/-! ## What is logged -/

namespace Sweep

variable {settings : Settings}

/-- A sweep takes nothing back that it has logged. -/
theorem log_prefix_step (sweep : Sweep) (pending : Pending) :
    sweep.log <+: (sweep.step settings pending).log := by
  rw [step]
  split
  · exact List.prefix_rfl
  · exact List.prefix_append _ _

theorem log_prefix_foldl (sweep : Sweep) (schemas : List Pending) :
    sweep.log <+: (schemas.foldl (step settings) sweep).log := by
  induction schemas generalizing sweep with
  | nil => exact List.prefix_rfl
  | cons pending rest ih => exact (log_prefix_step sweep pending).trans (ih _)

theorem log_prefix_pass (sweep : Sweep) : sweep.log <+: (sweep.pass settings).log := by
  rw [pass]
  split
  · exact List.prefix_rfl
  · have hbegin : sweep.log <+: sweep.begin.log := List.prefix_append _ _
    exact hbegin.trans (log_prefix_foldl _ _)

theorem log_prefix_after (sweep : Sweep) (n : Nat) :
    sweep.log <+: (sweep.after settings n).log := by
  induction n generalizing sweep with
  | zero => exact List.prefix_rfl
  | succ n ih => exact (log_prefix_pass sweep).trans (ih _)

/-- Where schemas wait, the first pass over them is logged. -/
theorem log_run_ne_nil (registry : Registry) {roots : List Pending} (h : roots ≠ []) :
    (run settings registry roots).log ≠ [] := by
  have hpending : ¬ roots.isEmpty = true := by simpa using h
  have hbegin : (begin { pending := roots, registry }).log
      <+: (pass settings { pending := roots, registry }).log := by
    rw [pass, if_neg hpending]
    exact log_prefix_foldl _ _
  have hrun : (begin { pending := roots, registry }).log <+: (run settings registry roots).log :=
    hbegin.trans (log_prefix_after _ _)
  exact hrun.ne_nil (List.cons_ne_nil _ _)

end Sweep

/-- A resolution that fails has logged something. -/
theorem log_ne_nil_of_resolve {settings : Settings} {registry : Registry} {roots : List Pending}
    {log : List LogLine} {failure : Failure}
    (h : resolve settings registry roots = (log, .error failure)) : log ≠ [] := by
  by_cases hroots : roots = []
  · subst hroots
    have hempty : resolve settings registry [] = ([], .ok ⟨[], []⟩) := by
      rw [resolve, Sweep.run, Sweep.after_of_isEmpty settings rfl]
      dsimp only [Sweep.allFaults, List.isEmpty_nil, if_true, Failure.of?]
      rw [ClassTable.settle]
      rfl
    rw [hempty] at h
    cases h
  · have hlog : (Sweep.run settings registry roots).log ≠ [] :=
      Sweep.log_run_ne_nil registry hroots
    rw [resolve] at h
    dsimp only at h
    split at h
    · obtain ⟨rfl, -⟩ := Prod.mk.inj h
      exact hlog
    · obtain ⟨rfl, -⟩ := Prod.mk.inj h
      exact List.append_ne_nil_of_left_ne_nil hlog _

/-! ## Refused runs -/

theorem Failure.faults_of? {faults : List Fault} {failure : Failure}
    (h : of? faults = some failure) : failure.faults = faults := by
  cases faults with
  | nil => cases h
  | cons first others =>
    obtain rfl := Option.some.inj h
    rfl

section

variable (settings : Settings) (isLoaded : String → Bool) (documents : List Document)

/-- The run fails, and nothing has been logged: not even the first pass of classification, which
is logged as it begins. -/
def IsRefused : Prop :=
  ∃ failure, mapDocuments settings isLoaded documents = ([], .error (.failure failure))

/-- How a run ends, with all that is logged, once its roots have been resolved. -/
def runOutcome (exclusion : Exclusion) (roots : List Pending) :
    List LogLine × Except Failure Resolution → List LogLine × Except RunError PojoSet
  | (log, .ok resolution) =>
    (log ++ summaryLog documents roots (resolution.toSet settings exclusion),
      .ok (resolution.toSet settings exclusion))
  | (log, .error failure) => (log, .error (.failure failure))

variable {settings isLoaded documents} {exclusion : Exclusion}

/-- A run with valid patterns fails as the checks before it say, or ends as its resolution does. -/
theorem mapDocuments_eq_of_exclusion
    (hexclusion : Exclusion.ofPatterns settings.excludedSchemas = .ok exclusion) :
    mapDocuments settings isLoaded documents =
      match Failure.of? (unloadedReferences isLoaded (includedSchemas exclusion documents)
          ++ (claimRoots settings (includedSchemas exclusion documents)).faults) with
      | some failure => ([], .error (.failure failure))
      | none => runOutcome settings documents exclusion
          (claimRoots settings (includedSchemas exclusion documents)).pending
          (resolve settings (claimRoots settings (includedSchemas exclusion documents)).registry
            (claimRoots settings (includedSchemas exclusion documents)).pending) := by
  rw [mapDocuments, hexclusion]
  dsimp only
  generalize claimRoots settings (includedSchemas exclusion documents) = roots
  cases Failure.of? (unloadedReferences isLoaded (includedSchemas exclusion documents)
      ++ roots.faults) with
  | some failure => rfl
  | none =>
    dsimp only
    rw [mapPending]
    cases resolve settings roots.registry roots.pending with
    | mk log result => cases result <;> rfl

/-- A run is refused with what the checks find, and with nothing else. -/
theorem mapDocuments_eq_refusal_iff
    (hexclusion : Exclusion.ofPatterns settings.excludedSchemas = .ok exclusion)
    {failure : Failure} :
    mapDocuments settings isLoaded documents = ([], .error (.failure failure))
      ↔ Failure.of? (unloadedReferences isLoaded (includedSchemas exclusion documents)
          ++ (claimRoots settings (includedSchemas exclusion documents)).faults)
        = some failure := by
  rw [mapDocuments_eq_of_exclusion hexclusion]
  cases Failure.of? (unloadedReferences isLoaded (includedSchemas exclusion documents)
      ++ (claimRoots settings (includedSchemas exclusion documents)).faults) with
  | some failure' => simp
  | none =>
    simp only [reduceCtorEq, iff_false]
    intro hrun
    -- A run that gets to its resolution and fails there has logged its first pass.
    rw [runOutcome.eq_def] at hrun
    split at hrun
    · cases (Prod.mk.inj hrun).2
    · rename_i log failure' hresolve
      obtain ⟨rfl, -⟩ := Prod.mk.inj hrun
      exact log_ne_nil_of_resolve hresolve rfl

/-- Refused runs are those in which the checks find something. -/
theorem isRefused_iff
    (hexclusion : Exclusion.ofPatterns settings.excludedSchemas = .ok exclusion) :
    IsRefused settings isLoaded documents
      ↔ unloadedReferences isLoaded (includedSchemas exclusion documents) ≠ []
        ∨ (claimRoots settings (includedSchemas exclusion documents)).faults ≠ [] := by
  rw [IsRefused, exists_congr fun failure => mapDocuments_eq_refusal_iff hexclusion,
    ← Option.isSome_iff_exists, Option.isSome_iff_ne_none, Ne, Failure.of?_eq_none_iff,
    List.append_eq_nil_iff, not_and_or]

/-- Claiming finds nothing wrong if and only if no two schemas have one type name. -/
theorem faults_eq_nil_iff {schemas : List (String × Schema)} :
    (claimRoots settings schemas).faults = [] ↔ schemas.Pairwise fun schema schema' =>
      (settings.pojoName schema.1).key ≠ (settings.pojoName schema'.1).key := by
  have hnodup : ((schemas.map (Pending.ofSchema settings)).map (·.name.key)).Nodup
      ↔ schemas.Pairwise fun schema schema' =>
        (settings.pojoName schema.1).key ≠ (settings.pojoName schema'.1).key := by
    rw [List.map_map, List.Nodup, List.pairwise_map]
    rfl
  rw [← hnodup]
  exact ⟨fun hfaults => (accepts_claimRoots hfaults).nodup, fun h => (claimRoots_eq h).1⟩

end

/-- **What is checked before a run.** Let the patterns of excluded schemas be valid. A run is
refused if and only if a reference that stands in one of its schemas, wherever that is, leads into
a document that is not loaded, or two of its schemas have one type name but for case. The faults
are then these references, each once and in the order in which they occur first, and after them
the schemas whose type name is not new, each with the first schema that has the name. A run that
is not refused resolves its schemas in the order of the documents, each under the name made of its
own key. -/
theorem preflight_exact (settings : Settings) (isLoaded : String → Bool)
    (documents : List Document) {exclusion : Exclusion}
    (hexclusion : Exclusion.ofPatterns settings.excludedSchemas = .ok exclusion) :
    (IsRefused settings isLoaded documents
        ↔ (∃ schema ∈ includedSchemas exclusion documents, ∃ reference document,
              schema.2.Refers reference ∧ refFile reference = some document
                ∧ isLoaded document = false)
          ∨ ¬ (includedSchemas exclusion documents).Pairwise fun schema schema' =>
              (settings.pojoName schema.1).key ≠ (settings.pojoName schema'.1).key)
      ∧ (∀ failure, mapDocuments settings isLoaded documents = ([], .error (.failure failure)) →
          ∃ entries, ListsOutside isLoaded (includedSchemas exclusion documents) entries
            ∧ failure.faults
              = entries.map (fun entry => .unloadedDocument entry.1 entry.2)
                ++ repeatedNames settings (includedSchemas exclusion documents))
      ∧ (¬ IsRefused settings isLoaded documents → ∀ roots,
          roots = (includedSchemas exclusion documents).map (Pending.ofSchema settings) →
          mapDocuments settings isLoaded documents
            = runOutcome settings documents exclusion roots
                (resolve settings (.ofPending roots) roots)) := by
  have hrefused : IsRefused settings isLoaded documents ↔ _ := isRefused_iff hexclusion
  refine ⟨?_, ?_, ?_⟩
  · rw [hrefused, Ne, Ne, unloadedReferences_eq_map, List.map_eq_nil_iff, faults_eq_nil_iff]
    refine or_congr_left ?_
    constructor
    · intro hne
      obtain ⟨⟨reference, document⟩, hentry⟩ := List.exists_mem_of_ne_nil _ hne
      obtain ⟨⟨schema, hschema, hrefers⟩, houtside⟩ :=
        (listsOutside_outsideReferences.mem_iff reference document).mp hentry
      exact ⟨schema, hschema, reference, document, hrefers, houtside⟩
    · rintro ⟨schema, hschema, reference, document, hrefers, houtside⟩
      exact List.ne_nil_of_mem ((listsOutside_outsideReferences.mem_iff reference document).mpr
        ⟨⟨schema, hschema, hrefers⟩, houtside⟩)
  · intro failure hrun
    have hfaults := Failure.faults_of? ((mapDocuments_eq_refusal_iff hexclusion).mp hrun)
    rw [unloadedReferences_eq_map, faults_claimRoots] at hfaults
    exact ⟨_, listsOutside_outsideReferences, hfaults⟩
  · intro hnot roots hroots
    obtain ⟨hloaded, hfaults⟩ := not_or.mp (mt hrefused.mpr hnot)
    have haccepts := accepts_claimRoots (not_not.mp hfaults)
    rw [mapDocuments_eq_of_exclusion hexclusion, not_not.mp hloaded, not_not.mp hfaults,
      haccepts.pending, haccepts.registry, ← hroots]
    rfl

/-- Pets alone are refused, because their owners are described in another document; together
with that document they are not, and their schemas begin the run as they are. -/
theorem preflight_exact_pets :
    Exclusion.ofPatterns ({} : Settings).excludedSchemas = .ok ⟨[]⟩
      ∧ IsRefused {} (fun _ => false) [pets]
      ∧ mapDocuments {} petsAndPeople.isLoaded [pets, people]
        = runOutcome {} [pets, people] ⟨[]⟩
            ((pets.schemas ++ people.schemas).map (Pending.ofSchema {}))
            (resolve {} (.ofPending ((pets.schemas ++ people.schemas).map (Pending.ofSchema {})))
              ((pets.schemas ++ people.schemas).map (Pending.ofSchema {}))) := by
  refine ⟨rfl, ?_, ?_⟩
  · apply (preflight_exact {} (fun _ => false) [pets] rfl).1.mpr
    refine .inl ⟨("Pet", .inline { allOf := [.ref "people.json#/components/schemas/Owner"] }),
      ?_, "people.json#/components/schemas/Owner", "people.json", ?_, ?_, rfl⟩
    · exact .tail _ (.head _)
    · exact .allOf List.mem_cons_self .here
    · decide +kernel
  · refine (preflight_exact {} petsAndPeople.isLoaded [pets, people] rfl).2.2 ?_ _ rfl
    rintro ⟨failure, hrefused⟩
    have hlog : (mapDocuments {} petsAndPeople.isLoaded [pets, people]).1.isEmpty = false := by
      decide +kernel
    rw [hrefused] at hlog
    cases hlog

end PojoGraph
