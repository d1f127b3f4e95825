import PojoGraph.Proofs.PojoSet.Copies
import PojoGraph.Proofs.Spelling.Classification
import PojoGraph.Run

/-!
# Runs over respelled documents

A nullable type may be spelled by its type and `nullable`, or by a list of the type and null. Runs
over documents that differ in this spelling alone, at any number of places, come to the same: the
same types, warnings and log lines, or the same faults.

## Main definitions

* `Sweep.Respelled` — respelled schemas wait in two sweeps that are otherwise equal.
* `Document.Respelled` — some nullable types of a document are spelled as lists.

## Main statements

* `Sweep.Respelled.after` — passes over respelled schemas go alike.
* `resolve_respelled` — respelled schemas resolve to the same types.
* `mapDocuments_respelled` — **the spelling of nullable types is immaterial**.
-/

namespace PojoGraph

/-! ## Sweeps -/

namespace Sweep

/-- Respelled schemas wait, and all else is equal. -/
inductive Respelled (sweep : Sweep) : Sweep → Prop
  | waiting {pending : List Pending} (h : List.Forall₂ Pending.Respelled sweep.pending pending) :
      Respelled sweep { sweep with pending }

namespace Respelled

variable {settings : Settings} {sweep sweep' : Sweep}

theorem step (h : sweep.Respelled sweep') {pending pending' : Pending}
    (hpending : pending.Respelled pending') :
    (sweep.step settings pending).Respelled (sweep'.step settings pending') := by
  obtain ⟨hwaiting⟩ := h
  have houtcomes := classify_respelled settings hpending sweep.registry
  rw [Sweep.step, Sweep.step]
  dsimp only
  generalize classify settings pending sweep.registry = result at houtcomes ⊢
  generalize classify settings pending' sweep.registry = result' at houtcomes ⊢
  cases houtcomes with
  | error fault => exact .waiting hwaiting
  | @ok result result' hresult =>
    obtain ⟨classified, survey⟩ := result
    obtain ⟨classified', survey'⟩ := result'
    obtain ⟨rfl, hsurvey⟩ : classified = classified' ∧ survey.Respelled survey' :=
      ⟨hresult.part, hresult.state⟩
    have hlog : classificationLog classified survey = classificationLog classified survey' := by
      rw [classificationLog, classificationLog, hsurvey.warnings]
    simp only [← hsurvey.registry, ← hsurvey.warnings, ← hlog]
    exact .waiting (List.rel_append hwaiting hsurvey.found)

theorem steps (h : sweep.Respelled sweep') {waiting waiting' : List Pending}
    (hwaiting : List.Forall₂ Pending.Respelled waiting waiting') :
    (waiting.foldl (Sweep.step settings) sweep).Respelled
      (waiting'.foldl (Sweep.step settings) sweep') :=
  List.rel_foldl (fun _ _ hsweep _ _ hpending => hsweep.step hpending) h hwaiting

theorem pass (h : sweep.Respelled sweep') :
    (sweep.pass settings).Respelled (sweep'.pass settings) := by
  cases h with
  | @waiting pending' hwaiting =>
    rw [Sweep.pass, Sweep.pass, isEmpty_eq_of_forall₂ hwaiting]
    split
    · exact .waiting hwaiting
    · have hbegin : sweep.begin.Respelled (Sweep.begin { sweep with pending := pending' }) := by
        rw [Sweep.begin, Sweep.begin, hwaiting.length_eq]
        exact .waiting .nil
      exact hbegin.steps hwaiting

/-- Passes over respelled schemas go alike. -/
theorem after (h : sweep.Respelled sweep') (n : Nat) :
    (sweep.after settings n).Respelled (sweep'.after settings n) := by
  induction n generalizing sweep sweep' with
  | zero => exact h
  | succ n ih => exact ih h.pass

theorem allFaults (h : sweep.Respelled sweep') : sweep.allFaults = sweep'.allFaults := by
  obtain ⟨hwaiting⟩ := h
  rw [Sweep.allFaults, Sweep.allFaults, isEmpty_eq_of_forall₂ hwaiting,
    map_eq_map_of_forall₂ hwaiting fun _ _ _ hpending => hpending.name]

end Respelled

/-- There are as many schemas to pass over in both spellings. -/
theorem enough_respelled {roots roots' : List Pending}
    (h : List.Forall₂ Pending.Respelled roots roots') : enough roots = enough roots' := by
  induction h with
  | nil => rfl
  | cons hroot _ ih =>
    simp only [enough, List.map_cons, Schema.sizeOfAll, hroot.schema.size] at ih ⊢
    omega

end Sweep

/-- **Schemas in the two spellings resolve to the same**, and the same is logged. -/
theorem resolve_respelled (settings : Settings) (registry : Registry)
    {roots roots' : List Pending} (h : List.Forall₂ Pending.Respelled roots roots') :
    resolve settings registry roots = resolve settings registry roots' := by
  have hrun : (Sweep.run settings registry roots).Respelled
      (Sweep.run settings registry roots') := by
    rw [Sweep.run, Sweep.run, Sweep.enough_respelled h]
    exact Sweep.Respelled.after (.waiting h) _
  have hfaults := hrun.allFaults
  rw [resolve, resolve]
  generalize Sweep.run settings registry roots = sweep at hrun hfaults ⊢
  generalize Sweep.run settings registry roots' = sweep' at hrun hfaults ⊢
  obtain ⟨-⟩ := hrun
  rw [hfaults]

/-! ## Runs -/

/-- The documents have the same schema keys in the same order, and each schema of the second is a
respelling of that of the first. -/
def Document.Respelled (document document' : Document) : Prop :=
  List.Forall₂ Schema.RespelledEntry document.schemas document'.schemas

theorem includedSchemas_respelled (exclusion : Exclusion) {documents documents' : List Document}
    (h : List.Forall₂ Document.Respelled documents documents') :
    List.Forall₂ Schema.RespelledEntry (includedSchemas exclusion documents)
      (includedSchemas exclusion documents') := by
  refine List.rel_filter (fun entry entry' hentry => ?_)
    (List.rel_flatMap h fun _ _ hdocument => hdocument)
  simp only [hentry.key]

theorem unloadedReferences_respelled (isLoaded : String → Bool)
    {schemas schemas' : List (String × Schema)}
    (h : List.Forall₂ Schema.RespelledEntry schemas schemas') :
    unloadedReferences isLoaded schemas = unloadedReferences isLoaded schemas' := by
  have hreferences : schemas.map (·.2.references) = schemas'.map (·.2.references) :=
    map_eq_map_of_forall₂ h fun _ _ _ hentry => hentry.schema.references
  rw [unloadedReferences, unloadedReferences, List.flatMap_def, List.flatMap_def, hreferences]

/-- Respelled schemas wait under the names claimed for them, and all else is equal. -/
inductive Roots.Respelled (roots : Roots) : Roots → Prop
  | waiting {pending : List Pending} (h : List.Forall₂ Pending.Respelled roots.pending pending) :
      Respelled roots { roots with pending }

theorem Roots.Respelled.declare {settings : Settings} {roots roots' : Roots}
    (h : roots.Respelled roots') {schema schema' : String × Schema}
    (hschema : Schema.RespelledEntry schema schema') :
    (roots.declare settings schema).Respelled (roots'.declare settings schema') := by
  obtain ⟨hwaiting⟩ := h
  rw [Roots.declare, Roots.declare, ← hschema.key]
  dsimp only
  split
  · exact .waiting hwaiting
  · exact .waiting (List.rel_append hwaiting (.cons ⟨rfl, hschema.schema⟩ .nil))

theorem claimRoots_respelled (settings : Settings) {schemas schemas' : List (String × Schema)}
    (h : List.Forall₂ Schema.RespelledEntry schemas schemas') :
    (claimRoots settings schemas).Respelled (claimRoots settings schemas') :=
  List.rel_foldl (fun _ _ hroots _ _ hschema => hroots.declare hschema) (.waiting .nil) h

/-- **The spelling of nullable types is immaterial**: runs over respelled documents give the same
set of types with the same warnings, or fail for the same reason, and log the same. -/
theorem mapDocuments_respelled {documents documents' : List Document}
    (h : List.Forall₂ Document.Respelled documents documents') (settings : Settings)
    (isLoaded : String → Bool) :
    mapDocuments settings isLoaded documents = mapDocuments settings isLoaded documents' := by
  rw [mapDocuments, mapDocuments]
  cases Exclusion.ofPatterns settings.excludedSchemas with
  | error error => rfl
  | ok exclusion =>
    have hschemas := includedSchemas_respelled exclusion h
    have hroots := claimRoots_respelled settings hschemas
    have hcount : (documents.flatMap (·.schemas)).length
        = (documents'.flatMap (·.schemas)).length :=
      (List.rel_flatMap h fun _ _ hdocument => hdocument).length_eq
    dsimp only
    rw [unloadedReferences_respelled isLoaded hschemas]
    generalize claimRoots settings (includedSchemas exclusion documents) = roots at hroots ⊢
    generalize claimRoots settings (includedSchemas exclusion documents') = roots' at hroots ⊢
    obtain ⟨hwaiting⟩ := hroots
    dsimp only
    simp only [mapPending, resolve_respelled settings _ hwaiting, summaryLog, hcount,
      h.length_eq, hwaiting.length_eq]

/-- A pet with a name and with tags, each under the given facets. -/
def taggedPets (pet name tag : Facets) : Document :=
  .ofSchemas [("Pet", .inline
    { toFacets := pet
      properties := [("name", .inline { toFacets := name }),
        ("tags", .inline
          { types := some (.single .array), items := some (.inline { toFacets := tag }) })] })]

/-- All types of pets are nullable, spelled by `nullable`. -/
def flaggedPets : Document :=
  taggedPets { types := some (.single .object), nullable := some true }
    { types := some (.single .string), nullable := some true }
    { types := some (.single .integer), nullable := some true }

/-- The same pets with two of three types spelled as lists. -/
def listedPets : Document :=
  taggedPets { types := some (.single .object), nullable := some true }
    { types := some (.multiple [.null, .string]) }
    { types := some (.multiple [.integer, .null]) }

theorem flaggedPets_respelled : List.Forall₂ Document.Respelled [flaggedPets] [listedPets] := by
  have hleaf : ∀ {facets facets' : Facets}, facets.Respelled facets' →
      Schema.Respelled (.inline { toFacets := facets }) (.inline { toFacets := facets' }) :=
    fun h => .inline h rfl .nil .none .none .nil .nil .nil
  have hname : Facets.Respelled { types := some (.single .string), nullable := some true }
      { types := some (.multiple [.null, .string]) } := .nullFirst (by decide) rfl rfl
  have htag : Facets.Respelled { types := some (.single .integer), nullable := some true }
      { types := some (.multiple [.integer, .null]) } := .nullLast (by decide) rfl rfl
  have htags : ∀ item item', Schema.Respelled item item' →
      Schema.Respelled (.inline { types := some (.single .array), items := some item })
        (.inline { types := some (.single .array), items := some item' }) :=
    fun _ _ hitem => .inline (.same _) rfl .nil .none (.some hitem) .nil .nil .nil
  have hproperties := List.Forall₂.cons (hleaf hname) (.cons (htags _ _ (hleaf htag)) .nil)
  exact .cons (.cons ⟨rfl, .inline (.same _) rfl hproperties .none .none .nil .nil .nil⟩ .nil) .nil

/-- Both spellings give one type, with a member that may be null. -/
theorem mapDocuments_flaggedPets : List.Forall₂ Document.Respelled [flaggedPets] [listedPets]
    ∧ mapDocuments {} (fun _ => false) [flaggedPets] = mapDocuments {} (fun _ => false) [listedPets]
    ∧ ∃ set, (mapDocuments {} (fun _ => false) [flaggedPets]).2 = .ok set
      ∧ (set.pojos.filterMap (·.object?)).map (fun object => object.members.map fun member =>
          (member.name, member.nullability))
        = [[("name", .nullable), ("tags", .notNullable)]] := by
  obtain ⟨set, hset, hmembers⟩ := exists_ok_of_any_toOption
    (show ((mapDocuments {} (fun _ => false) [flaggedPets]).2.toOption.any fun set =>
      decide ((set.pojos.filterMap (·.object?)).map (fun object => object.members.map fun member =>
          (member.name, member.nullability))
        = [[("name", .nullable), ("tags", .notNullable)]])) = true by decide +kernel)
  exact ⟨flaggedPets_respelled, mapDocuments_respelled flaggedPets_respelled {} _, set, hset,
    of_decide_eq_true hmembers⟩

end PojoGraph
