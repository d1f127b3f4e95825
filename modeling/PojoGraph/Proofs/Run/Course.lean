import Mathlib.Data.List.Induction
import PojoGraph.Proofs.Classification.Names
import PojoGraph.Proofs.PojoSet.Steps
import PojoGraph.Proofs.Sweep.Accounting
import PojoGraph.Run

/-!
# The course of a run

A run that succeeds has claimed the names of its schemas as they are, classified these and all
that were found in them, and settled the compositions; the final set is made of the outcome, and
names are mapped in it last of all. The course of a run keeps what it met on the way, so that
facts about the final set can be traced back to the documents.

References lead to types by the keys of their names only. In a course each key belongs to one
schema at most: that one is what a name is bound to.

## Main definitions

* `Settings.referenceName` — the name under which a reference looks for its type.
* `Course` — how a run that succeeds gets to its result.
* `Course.pojos`, `Course.Makes` — the generated types before names are mapped, and the final set.
* `Course.derivedNames` — the names asked for by schemas for what is found in them.
* `Course.boundTo?` — the schema that a name leads to.

## Main statements

* `mem_unloadedReferences_iff` — what is reported of references before a run.
* `accepts_claimRoots` — the names of schemas are claimed as they are, or a fault is reported.
* `exists_course` — every run that succeeds has a course.
* `Visit.Chain.claimAll` — the names of found schemas are claimed in order.
* `Course.names_pojos_sublist` — generated types have names of schemas of the run.
* `Course.lookup?_final` — compositions take what a name is bound to for their branch.
-/

namespace PojoGraph

/-- The name of the type that a reference leads to. -/
def Settings.referenceName (settings : Settings) (reference : String) : PojoName :=
  settings.pojoName (refName reference)

/-! ## References out of a run -/

/-- **The references reported before a run** are those of its schemas into documents outside. -/
theorem mem_unloadedReferences_iff {isLoaded : String → Bool} {schemas : List (String × Schema)}
    {fault : Fault} : fault ∈ unloadedReferences isLoaded schemas
      ↔ ∃ schema ∈ schemas, ∃ reference ∈ schema.2.references, ∃ path,
        refFile reference = some path ∧ isLoaded path = false
          ∧ fault = .unloadedDocument reference path := by
  rw [unloadedReferences, List.mem_eraseDups, List.mem_filterMap]
  constructor
  · rintro ⟨reference, hreference, hsome⟩
    obtain ⟨schema, hschema, hreference⟩ := List.mem_flatMap.mp hreference
    refine ⟨schema, hschema, reference, hreference, ?_⟩
    cases hpath : refFile reference with
    | none => simp [hpath] at hsome
    | some path =>
      cases hloaded : isLoaded path with
      | true => simp [hpath, hloaded] at hsome
      | false => exact ⟨path, rfl, hloaded, by simpa [hpath, hloaded] using hsome.symm⟩
  · rintro ⟨schema, hschema, reference, hreference, path, hpath, hloaded, rfl⟩
    refine ⟨reference, List.mem_flatMap.mpr ⟨schema, hschema, hreference⟩, ?_⟩
    simp [hpath, hloaded]

/-! ## Roots -/

/-- A schema of a document, to be classified under the name made of its key. -/
def Pending.ofSchema (settings : Settings) (schema : String × Schema) : Pending :=
  ⟨settings.pojoName schema.1, schema.2⟩

/-- The registry in which the names of waiting schemas have been taken in order. -/
def Registry.ofPending (pending : List Pending) : Registry :=
  ⟨(pending.map (·.name.key)).reverse⟩

theorem Registry.claim_ofPending {pending : List Pending} {name : PojoName} {schema : Schema}
    (h : (ofPending pending).isFree name) :
    ((ofPending pending).claim name).2 = .ofPending (pending ++ [⟨name, schema⟩]) := by
  simp only [claim, choose_of_isFree h]
  simp [ofPending]

/-- All schemas wait under the names made of their keys, which are different and taken. -/
structure Roots.Accepts (settings : Settings) (schemas : List (String × Schema)) (roots : Roots) :
    Prop where
  pending : roots.pending = schemas.map (Pending.ofSchema settings)
  declared : Dictionary.keys roots.declared
    = (schemas.map (Pending.ofSchema settings)).map (·.name.key)
  registry : roots.registry = .ofPending (schemas.map (Pending.ofSchema settings))
  nodup : ((schemas.map (Pending.ofSchema settings)).map (·.name.key)).Nodup

theorem claimRoots_concat {settings : Settings} {schemas : List (String × Schema)}
    (schema : String × Schema) :
    claimRoots settings (schemas ++ [schema])
      = (claimRoots settings schemas).declare settings schema := by
  rw [claimRoots, List.foldl_append]
  rfl

/-- **Where no two schemas share a type name, each gets its own as it is.** -/
theorem accepts_claimRoots {settings : Settings} {schemas : List (String × Schema)}
    (h : (claimRoots settings schemas).faults = []) :
    (claimRoots settings schemas).Accepts settings schemas := by
  induction schemas using List.reverseRecOn with
  | nil => exact ⟨rfl, rfl, rfl, List.nodup_nil⟩
  | append_singleton schemas schema ih =>
    rw [claimRoots_concat, Roots.declare] at h ⊢
    dsimp only at h ⊢
    cases hlookup : (claimRoots settings schemas).declared.lookup?
        (settings.pojoName schema.1).key with
    | some first => simp [hlookup] at h
    | none =>
      rw [hlookup] at h
      have hbefore := ih h
      have hnew : (settings.pojoName schema.1).key
          ∉ (schemas.map (Pending.ofSchema settings)).map (·.name.key) := by
        rw [← hbefore.declared]
        exact Dictionary.lookup?_eq_none_iff.mp hlookup
      have hfree : (claimRoots settings schemas).registry.isFree (settings.pojoName schema.1) := by
        rw [Registry.isFree_iff, hbefore.registry, Registry.ofPending, List.mem_reverse]
        exact hnew
      have hclaim := Registry.choose_of_isFree hfree
      rw [hbefore.registry] at hfree
      refine ⟨?_, ?_, ?_, ?_⟩
      · simp [hclaim, hbefore.pending, Pending.ofSchema]
      · have hdeclared := hbefore.declared
        simp only [Dictionary.keys] at hdeclared ⊢
        simp [hdeclared, Pending.ofSchema]
      · simp only [hbefore.registry, List.map_append, List.map_singleton]
        exact Registry.claim_ofPending hfree
      · rw [List.map_append, List.map_append, List.nodup_append]
        refine ⟨hbefore.nodup, List.nodup_singleton _, ?_⟩
        rintro key hkey _ hlast rfl
        rw [List.map_singleton, List.map_singleton, List.mem_singleton] at hlast
        exact hnew (hlast ▸ hkey)

/-! ## Courses -/

/-- How a run over some documents gets to its result: the schemas that the exclusion leaves, the
visits of these and of all that are found in them, and the table to which compositions settle. -/
structure Course (settings : Settings) (isLoaded : String → Bool) (documents : List Document) where
  exclusion : Exclusion
  /-- The schemas of the documents that are not excluded. -/
  roots : List Pending
  visits : List Visit
  /-- What the schemas have become once compositions are resolved. -/
  final : ClassTable
  isExclusion : Exclusion.ofPatterns settings.excludedSchemas = .ok exclusion
  roots_eq : roots = (includedSchemas exclusion documents).map (Pending.ofSchema settings)
  loaded : unloadedReferences isLoaded (includedSchemas exclusion documents) = []
  valid : ∀ visit ∈ visits, visit.IsValid settings
  chain : ∃ after, Visit.Chain (.ofPending roots) visits after
  /-- The visits are those of the sweep, pass by pass. -/
  passes_eq : visits.map (·.pending) = (List.range (Sweep.enough roots)).flatMap fun n =>
    (Sweep.after settings { pending := roots, registry := .ofPending roots } n).pending
  queue_eq : visits.map (·.pending) = roots ++ visits.flatMap (·.survey.found)
  nodup : (visits.map (·.pending.name.key)).Nodup
  settles : ClassTable.SettlesTo (visits.map Visit.entry) final
  resolves : ∃ log warnings,
    resolve settings (.ofPending roots) roots = (log, .ok ⟨final.entries, warnings⟩)

namespace Course

section

variable {settings : Settings} {isLoaded : String → Bool} {documents : List Document}
  (course : Course settings isLoaded documents)

/-- The schemas found in other schemas. -/
def found : List Pending :=
  course.visits.flatMap (·.survey.found)

/-- All schemas of the run, in the order in which they are visited. -/
def queue : List Pending :=
  course.visits.map (·.pending)

/-- The names asked for by the schemas of the run for what is found in them, in order. -/
def derivedNames : List PojoName :=
  course.visits.flatMap fun visit => visit.pending.schema.derivedNames visit.pending.name

/-- The generated types before their names are mapped. -/
def pojos : List Pojo :=
  (PojoSet.ofResolved settings.referenceInlining course.final.entries).describe.pojos

/-- The set is what the course comes to: its types with names mapped, and warnings that end with
the references to types that do not exist. -/
structure Makes (set : PojoSet) : Prop where
  pojos : set.pojos = course.pojos.map (·.rename settings.mapName)
  warnings : danglingReferences course.exclusion course.pojos <:+ set.warnings

/-- The schema that a name leads to. -/
def boundTo? (name : PojoName) : Option Pending :=
  course.queue.find? (·.name.isSame name)

end

end Course

/-- A sweep that begins with schemas of different names accounts for these. -/
theorem Sweep.accounts_ofPending (settings : Settings) {roots : List Pending}
    (hnodup : (roots.map (·.name.key)).Nodup) :
    Accounts settings roots [] [] { pending := roots, registry := .ofPending roots } := by
  refine ⟨by simp, by simp, by simpa using hnodup, ?_, rfl⟩
  simpa [Registry.ofPending] using fun root hroot => ⟨root, hroot, rfl⟩

section

variable {settings : Settings} {isLoaded : String → Bool} {documents : List Document}

/-- A run of schemas with different names visits these and all that are found in them. -/
theorem exists_visits_of_resolve {roots : List Pending} {log : List LogLine}
    {resolution : Resolution} (hnodup : (roots.map (·.name.key)).Nodup)
    (h : resolve settings (.ofPending roots) roots = (log, .ok resolution)) :
    ∃ (visits : List Visit) (final : ClassTable),
      (∀ visit ∈ visits, visit.IsValid settings)
        ∧ (∃ after, Visit.Chain (.ofPending roots) visits after)
        ∧ visits.map (·.pending) = ((List.range (Sweep.enough roots)).flatMap fun n =>
          (Sweep.after settings { pending := roots, registry := .ofPending roots } n).pending)
        ∧ visits.map (·.pending) = roots ++ visits.flatMap (·.survey.found)
        ∧ (visits.map (·.pending.name.key)).Nodup
        ∧ ClassTable.SettlesTo (visits.map Visit.entry) final
        ∧ resolution.entries = final.entries := by
  obtain ⟨hfaults, hpending, hsettle⟩ := sweep_of_resolve h
  let start : Sweep := { pending := roots, registry := .ofPending roots }
  have hbegin : Sweep.Accounts settings roots [] [] start :=
    Sweep.accounts_ofPending settings hnodup
  obtain ⟨visits, hvisits, hchain, haccounts⟩ := hbegin.after_chained (Sweep.enough roots) hfaults
  have hend : (start.after settings (Sweep.enough roots)).pending = [] := hpending
  obtain ⟨final, hsettles, -, hentries⟩ := ClassTable.exists_settlesTo hsettle
  refine ⟨visits, final, haccounts.valid, ⟨_, hchain⟩, hvisits, ?_, ?_, ?_, hentries⟩
  · simpa [hend] using haccounts.queue
  · have hkeys := haccounts.nodup
    rw [List.nil_append, hend, List.append_nil, List.map_map] at hkeys
    exact hkeys
  · rw [← haccounts.table]
    exact hsettles

/-- **Every run that succeeds has a course.** -/
theorem exists_course {set : PojoSet} (h : (mapDocuments settings isLoaded documents).2 = .ok set) :
    ∃ course : Course settings isLoaded documents, course.Makes set := by
  rw [mapDocuments] at h
  split at h
  · cases h
  · rename_i exclusion hexclusion
    dsimp only at h
    split at h
    · cases h
    · rename_i hfaults
      obtain ⟨hloaded, hdistinct⟩ := List.append_eq_nil_iff.mp (Failure.of?_eq_none_iff.mp hfaults)
      have hroots := accepts_claimRoots hdistinct
      split at h
      · rename_i log mapped hmapped
        cases h
        rw [mapPending, hroots.pending, hroots.registry] at hmapped
        generalize heq : (includedSchemas exclusion documents).map (Pending.ofSchema settings)
          = roots at hmapped
        have hnodup : (roots.map (·.name.key)).Nodup := heq ▸ hroots.nodup
        cases hresolve : resolve settings (.ofPending roots) roots with
        | mk log result =>
          cases result with
          | error failure => simp [hresolve, Except.map] at hmapped
          | ok resolution =>
            simp only [hresolve, Except.map, Prod.mk.injEq, Except.ok.injEq] at hmapped
            obtain ⟨-, rfl⟩ := hmapped
            obtain ⟨entries, warnings⟩ := resolution
            obtain ⟨visits, final, hvalid, hchain, hpasses, hqueue, hkeys, hsettles, rfl⟩ :=
              exists_visits_of_resolve hnodup hresolve
            exact ⟨⟨exclusion, roots, visits, final, hexclusion, heq.symm, hloaded, hvalid, hchain,
              hpasses, hqueue, hkeys, hsettles, log, warnings, hresolve⟩, rfl,
              (List.suffix_append _ _).trans (List.suffix_append _ _)⟩
      · cases h

end

/-- **The schemas found by visits one after the other have the names that claiming all derived
names gives**, in the order of the visits. -/
theorem Visit.Chain.claimAll {settings : Settings} {before after : Registry} {visits : List Visit}
    (h : Visit.Chain before visits after) (hvalid : ∀ visit ∈ visits, visit.IsValid settings) :
    before.claimAll (visits.flatMap fun visit =>
        visit.pending.schema.derivedNames visit.pending.name)
      = ((visits.flatMap (·.survey.found)).map (·.name), after) := by
  induction h with
  | nil registry => rfl
  | cons visit hrest ih =>
    have hvisit := claimAll_classify (hvalid visit List.mem_cons_self)
    have hothers := ih fun other hother => hvalid other (List.mem_cons_of_mem _ hother)
    rw [List.flatMap_cons, Registry.claimAll_append, hvisit, hothers]
    simp

/-! ## Names -/

namespace Course

variable {settings : Settings} {isLoaded : String → Bool} {documents : List Document}
  {course : Course settings isLoaded documents} {name : PojoName} {pending : Pending}

theorem mem_roots : pending ∈ course.roots
    ↔ ∃ schema ∈ includedSchemas course.exclusion documents,
      Pending.ofSchema settings schema = pending := by
  rw [course.roots_eq, List.mem_map]

theorem queue_eq_append : course.queue = course.roots ++ course.found :=
  course.queue_eq

theorem nodup_keys_queue : (course.queue.map (·.name.key)).Nodup := by
  rw [queue, List.map_map]
  exact course.nodup

theorem claimAll_derivedNames :
    ((Registry.ofPending course.roots).claimAll course.derivedNames).1
      = course.found.map (·.name) := by
  obtain ⟨after, hchain⟩ := course.chain
  exact congrArg (·.1) (hchain.claimAll course.valid)

theorem names_entries : course.final.entries.map (·.name) = course.queue.map (·.name) := by
  have hentries := course.settles.entries
  rw [List.forall₂_map_left_iff] at hentries
  rw [eq_comm, queue, List.map_map, ← List.forall₂_eq_eq_eq, List.forall₂_map_left_iff,
    List.forall₂_map_right_iff]
  refine ((List.forall₂_and_left _ _).mpr ⟨course.valid, hentries⟩).imp ?_
  rintro visit resolved ⟨hvalid, hbecomes⟩
  have hname : visit.classified.name = visit.pending.name := name_of_classify hvalid
  rw [Function.comp_apply, ← hname, ← Resolved.name_entry, hbecomes.name_eq]
  rfl

/-- **Generated types have names of schemas of the run**, in their order. -/
theorem names_pojos_sublist :
    List.Sublist (course.pojos.map (·.name)) (course.queue.map (·.name)) := by
  rw [pojos, names_describe, ← names_entries]
  exact names_ofResolved_sublist _ _

/-! ## What names are bound to -/

/-- A name is bound to the schema that has its key. -/
theorem boundTo?_eq_some_iff :
    course.boundTo? name = some pending ↔ pending ∈ course.queue ∧ pending.name.key = name.key := by
  constructor
  · intro h
    exact ⟨List.mem_of_find?_eq_some h, by simpa using List.find?_some h⟩
  · rintro ⟨hmem, hkey⟩
    cases hbound : course.boundTo? name with
    | none =>
      have hnone := List.find?_eq_none.mp hbound pending hmem
      exact absurd hkey (by simpa using hnone)
    | some other =>
      have hother : other.name.key = name.key := by simpa using List.find?_some hbound
      rw [List.inj_on_of_nodup_map course.nodup_keys_queue (List.mem_of_find?_eq_some hbound) hmem
        (hother.trans hkey.symm)]

theorem boundTo?_eq_none_iff :
    course.boundTo? name = none ↔ ∀ pending ∈ course.queue, pending.name.key ≠ name.key := by
  simp [boundTo?]

theorem keys_final : Dictionary.keys course.final = course.queue.map (·.name.key) := by
  have hkeys : List.Forall₂ (fun before after => before.1 = after.1)
      (course.visits.map Visit.entry) course.final := course.settles.imp fun _ _ h => h.1
  have heq : (course.visits.map Visit.entry).map (·.1) = course.final.map (·.1) := by
    rwa [← List.forall₂_eq_eq_eq, List.forall₂_map_left_iff, List.forall₂_map_right_iff]
  rw [Dictionary.keys, ← heq, queue, List.map_map, List.map_map]
  rfl

/-- What has been visited has an entry in the final table: what it has become. -/
theorem exists_becomes {visit : Visit} (hvisit : visit ∈ course.visits) :
    ∃ after, (visit.pending.name.key, after) ∈ course.final
      ∧ course.final.Becomes visit.classified after := by
  have hentry : visit.entry ∈ course.visits.map Visit.entry := List.mem_map_of_mem hvisit
  obtain ⟨i, hi, hat⟩ := List.mem_iff_getElem.mp hentry
  have hlength := course.settles.length_eq
  have hi' : i < course.final.length := by omega
  obtain ⟨hkey, hbecomes⟩ := course.settles.get hi hi'
  simp only [List.get_eq_getElem, hat] at hkey hbecomes
  refine ⟨course.final[i].2, ?_, hbecomes⟩
  change (visit.entry.1, _) ∈ _
  rw [hkey]
  exact List.getElem_mem hi'

/-- What has an entry in the final table has been visited. -/
theorem exists_becomes_of_mem {resolved : Resolved} (h : resolved ∈ course.final.entries) :
    ∃ visit ∈ course.visits, course.final.Becomes visit.classified resolved.entry := by
  obtain ⟨entry, hentry, hbecomes⟩ := course.settles.exists_becomes h
  obtain ⟨visit, hvisit, rfl⟩ := List.mem_map.mp hentry
  exact ⟨visit, hvisit, hbecomes⟩

/-- **Compositions find under a name what the schema that it is bound to has become**, and
nothing if it is bound to none. -/
theorem lookup?_final (name : PojoName) :
    match course.boundTo? name with
    | some pending => ∃ visit ∈ course.visits, visit.pending = pending
      ∧ ∃ after, course.final.lookup? name.key = some after
        ∧ course.final.Becomes visit.classified after
    | none => course.final.lookup? name.key = none := by
  cases hbound : course.boundTo? name with
  | none =>
    rw [boundTo?_eq_none_iff] at hbound
    rw [Dictionary.lookup?_eq_none_iff, keys_final]
    intro hmem
    obtain ⟨pending, hpending, hkey⟩ := List.mem_map.mp hmem
    exact hbound pending hpending hkey
  | some pending =>
    obtain ⟨hmem, hkey⟩ := boundTo?_eq_some_iff.mp hbound
    obtain ⟨visit, hvisit, rfl⟩ := List.mem_map.mp hmem
    obtain ⟨after, hafter, hbecomes⟩ := exists_becomes hvisit
    have hnodup : (Dictionary.keys course.final).Nodup := by
      rw [keys_final]
      exact course.nodup_keys_queue
    refine ⟨visit, hvisit, rfl, after, ?_, hbecomes⟩
    rw [← hkey]
    exact (Dictionary.lookup?_eq_some_iff hnodup).mpr hafter

end Course

end PojoGraph
