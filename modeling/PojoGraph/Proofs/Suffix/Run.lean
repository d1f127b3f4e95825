import PojoGraph.Proofs.Run.Outcome
import PojoGraph.Proofs.Suffix.PojoSet

/-!
# Runs under a suffix

The suffix of a run stands in the names of its types, and in nothing else that it gives. Runs over
ASCII documents that differ in the suffix alone come to the same: the same types in the same order,
with the same members and numbers and discriminator values, the same warnings, or the same faults.

## Main definitions

* `Document.IsAscii` — schema keys, properties and references of a document are ASCII texts.
* `Roots.withSuffix`, `RunError.rename` — roots and errors under other names.

## Main statements

* `claimRoots_withSuffix` — roots are claimed with a suffix as they are without.
* `suffix_is_cosmetic` — **a run under another suffix is the same but for the suffix of all
  names**.
-/

namespace PojoGraph

open Text

/-- The schema keys of the document, the properties that it declares, at any depth, and its
references are ASCII texts. -/
def Document.IsAscii (document : Document) : Prop :=
  ∀ entry ∈ document.schemas, Text.IsAscii entry.1 ∧ entry.2.IsAscii

/-! ## Roots -/

/-- The roots with a suffix in all names. -/
def Roots.withSuffix (suffix : String) (roots : Roots) : Roots where
  registry := roots.registry.withSuffix suffix
  pending := roots.pending.map (.withSuffix suffix)
  declared := roots.declared.map fun entry => (entry.1 ++ lower suffix, entry.2)
  faults := roots.faults.map (.rename (.withSuffix suffix))

section

variable {settings : Settings} (hbare : settings.suffix = "") {suffix : String}
  (hsuffix : IsAscii suffix)

include hbare hsuffix

theorem declare_withSuffix (roots : Roots) {schema : String × Schema} (hkey : IsAscii schema.1) :
    (roots.withSuffix suffix).declare (settings.withSuffix suffix) schema
      = (roots.declare settings schema).withSuffix suffix := by
  have hname : (settings.pojoName schema.1).IsUnsuffixed := ⟨hkey, hbare⟩
  have hkeys := PojoName.key_withSuffix hname hsuffix
  have hpojoName : (settings.withSuffix suffix).pojoName schema.1
      = (settings.pojoName schema.1).withSuffix suffix := rfl
  have hlookup : (roots.withSuffix suffix).declared.lookup?
        ((settings.pojoName schema.1).key ++ lower suffix)
      = (roots.declared.lookup? (settings.pojoName schema.1).key).map id :=
    Dictionary.lookup?_map_injective (PojoName.append_lower_injective suffix) id _ _
  rw [Option.map_id_fun, id_eq] at hlookup
  have hclaim := Registry.claim_withSuffix roots.registry hsuffix hname
  rw [Roots.declare, Roots.declare, hpojoName, hkeys, hlookup]
  cases roots.declared.lookup? (settings.pojoName schema.1).key with
  | some first =>
    simp only [Roots.withSuffix, List.map_append]
    rfl
  | none =>
    simp only [Roots.withSuffix, hclaim, List.map_append]
    rfl

/-- Roots are claimed with a suffix as they are without. -/
theorem claimRoots_withSuffix {schemas : List (String × Schema)}
    (hkeys : ∀ schema ∈ schemas, IsAscii schema.1) :
    claimRoots (settings.withSuffix suffix) schemas
      = (claimRoots settings schemas).withSuffix suffix := by
  induction schemas using List.reverseRecOn with
  | nil => rfl
  | append_singleton schemas schema ih =>
    have hbefore := ih fun other hother => hkeys other (List.mem_append_left _ hother)
    have hlast := hkeys schema (List.mem_append_right _ (List.mem_singleton_self _))
    rw [claimRoots, claimRoots, List.foldl_append, List.foldl_append, ← claimRoots, ← claimRoots,
      hbefore]
    exact declare_withSuffix hbare hsuffix _ hlast

end

/-! ## Runs -/

/-- The reason for which a run fails, with all names of types changed. -/
def RunError.rename (f : PojoName → PojoName) : RunError → RunError
  | invalidPattern error => .invalidPattern error
  | failure cause => .failure (cause.rename f)

/-- References into documents outside a run name no types. -/
theorem unloadedReferences_rename (f : PojoName → PojoName) (isLoaded : String → Bool)
    (schemas : List (String × Schema)) :
    (unloadedReferences isLoaded schemas).map (.rename f)
      = unloadedReferences isLoaded schemas := by
  rw [← List.map_id (unloadedReferences isLoaded schemas), List.map_map]
  refine List.map_congr_left fun fault hfault => ?_
  obtain ⟨-, -, reference, -, path, -, -, rfl⟩ := mem_unloadedReferences_iff.mp hfault
  rfl

theorem mapName_withSuffix (settings : Settings) (suffix : String) (name : PojoName) :
    settings.mapName (name.withSuffix suffix) = (settings.mapName name).withSuffix suffix := by
  unfold Settings.mapName
  induction settings.nameMappings generalizing name with
  | nil => rfl
  | cons mapping rest ih =>
    have hreplace : (name.withSuffix suffix).replace mapping.constant mapping.replacement
        = (name.replace mapping.constant mapping.replacement).withSuffix suffix := by
      simp only [PojoName.replace]
      split <;> rfl
    rw [List.foldl_cons, List.foldl_cons, hreplace, ih]

section

variable {settings : Settings} (hbare : settings.suffix = "") {suffix : String}
  (hsuffix : IsAscii suffix)

include hsuffix

theorem toSet_withSuffix {exclusion : Exclusion} {resolution : Resolution}
    (h : ∀ resolved ∈ resolution.entries, resolved.Within PojoName.IsUnsuffixed) :
    (resolution.rename (.withSuffix suffix)).toSet (settings.withSuffix suffix) exclusion
      = (resolution.toSet settings exclusion).renameAll (.withSuffix suffix) := by
  have hset := PojoSet.ofEntries_renameAll (Revision.isFaithful_withSuffix hsuffix)
    exclusion h (mapName_withSuffix settings suffix)
  have hsettings : PojoSet.ofEntries (settings.withSuffix suffix) exclusion
      = PojoSet.ofEntries settings exclusion := rfl
  simp only [Resolution.toSet, Resolution.rename, hsettings, hset, PojoSet.renameAll,
    List.map_append]

include hbare

/-- **A run with a suffix is the run without one, with the suffix in all names.** -/
theorem mapDocuments_withSuffix {documents : List Document}
    (hascii : ∀ document ∈ documents, document.IsAscii) (isLoaded : String → Bool) :
    (mapDocuments (settings.withSuffix suffix) isLoaded documents).2
      = ((mapDocuments settings isLoaded documents).2.map
          (PojoSet.renameAll (.withSuffix suffix))).mapError
        (RunError.rename (.withSuffix suffix)) := by
  have hexcluded : (settings.withSuffix suffix).excludedSchemas = settings.excludedSchemas := rfl
  rw [snd_mapDocuments, snd_mapDocuments, resolveDocuments, resolveDocuments, hexcluded]
  cases Exclusion.ofPatterns settings.excludedSchemas with
  | error error => rfl
  | ok exclusion =>
    have hschemas : ∀ schema ∈ includedSchemas exclusion documents,
        IsAscii schema.1 ∧ schema.2.IsAscii := by
      intro schema hschema
      obtain ⟨document, hdocument, hmem⟩ :=
        List.mem_flatMap.mp (List.mem_of_mem_filter hschema)
      exact hascii document hdocument schema hmem
    dsimp only
    generalize includedSchemas exclusion documents = schemas at hschemas ⊢
    have hclaims := claimRoots_withSuffix hbare hsuffix fun schema hschema =>
      (hschemas schema hschema).1
    have hfaults : unloadedReferences isLoaded schemas
        ++ ((claimRoots settings schemas).withSuffix suffix).faults
      = (unloadedReferences isLoaded schemas ++ (claimRoots settings schemas).faults).map
        (.rename (.withSuffix suffix)) := by
      rw [List.map_append, unloadedReferences_rename]
      rfl
    rw [hclaims, hfaults, Failure.of?_map_rename]
    cases hchecks : Failure.of? (unloadedReferences isLoaded schemas
        ++ (claimRoots settings schemas).faults) with
    | some failure => rfl
    | none =>
      obtain ⟨-, hnone⟩ := List.append_eq_nil_iff.mp (Failure.of?_eq_none_iff.mp hchecks)
      have hroots : ∀ root ∈ (claimRoots settings schemas).pending, root.IsAscii := by
        rw [(accepts_claimRoots hnone).pending]
        exact List.forall_mem_map.mpr fun schema hschema =>
          ⟨⟨(hschemas schema hschema).1, hbare⟩, (hschemas schema hschema).2⟩
      have hresolve := resolve_withSuffix hbare hroots (claimRoots settings schemas).registry
        hsuffix
      simp only [Option.map_none, Roots.withSuffix, hresolve]
      cases hresult : (resolve settings (claimRoots settings schemas).registry
          (claimRoots settings schemas).pending).2 with
      | error failure => rfl
      | ok resolution =>
        exact congrArg Except.ok
          (toSet_withSuffix hsuffix (within_resolve hbare hroots _ hresult))

end

/-! ## Two suffixes -/

theorem PojoName.withSuffix_withSuffix (suffix other : String) :
    PojoName.withSuffix other ∘ PojoName.withSuffix suffix = PojoName.withSuffix other := rfl

theorem Warning.rename_rename (f g : PojoName → PojoName) (warning : Warning) :
    (warning.rename f).rename g = warning.rename (g ∘ f) := by
  cases warning <;> rfl

theorem PojoSet.renameAll_renameAll (f g : PojoName → PojoName) (set : PojoSet) :
    (set.renameAll f).renameAll g = set.renameAll (g ∘ f) := by
  simp only [renameAll, List.map_map, Function.comp_def, Pojo.rename_rename,
    Warning.rename_rename]

theorem Fault.rename_rename (f g : PojoName → PojoName) (fault : Fault) :
    (fault.rename f).rename g = fault.rename (g ∘ f) := by
  cases fault with
  | unresolvable stuck => simp [rename, Stuck.rename]
  | endless pending => simp [rename]
  | _ => rfl

theorem RunError.rename_rename (f g : PojoName → PojoName) (error : RunError) :
    (error.rename f).rename g = error.rename (g ∘ f) := by
  cases error with
  | invalidPattern error => rfl
  | failure failure => simp [rename, Failure.rename, Fault.rename_rename, Function.comp_def]

/-- **The suffix is cosmetic.** -/
theorem suffix_is_cosmetic {documents : List Document}
    (hascii : ∀ document ∈ documents, document.IsAscii) {suffix other : String}
    (hsuffix : IsAscii suffix) (hother : IsAscii other) (settings : Settings)
    (isLoaded : String → Bool) :
    (mapDocuments (settings.withSuffix other) isLoaded documents).2
      = ((mapDocuments (settings.withSuffix suffix) isLoaded documents).2.map
          (PojoSet.renameAll (.withSuffix other))).mapError
        (RunError.rename (.withSuffix other)) := by
  have hbare : (settings.withSuffix "").suffix = "" := rfl
  have hfirst := mapDocuments_withSuffix hbare hsuffix hascii isLoaded
  have hsecond := mapDocuments_withSuffix hbare hother hascii isLoaded
  change (mapDocuments (settings.withSuffix suffix) isLoaded documents).2 = _ at hfirst
  change (mapDocuments (settings.withSuffix other) isLoaded documents).2 = _ at hsecond
  rw [hfirst, hsecond]
  cases (mapDocuments (settings.withSuffix "") isLoaded documents).2 with
  | ok set =>
    simp only [Except.map, Except.mapError, PojoSet.renameAll_renameAll,
      PojoName.withSuffix_withSuffix]
  | error error =>
    simp only [Except.map, Except.mapError, RunError.rename_rename,
      PojoName.withSuffix_withSuffix]

/-- A schema that gets a number, and a union whose branches are told apart by schema keys. -/
def shelf : Document :=
  .ofSchemas
    [("book", .inline
        { properties := [("tag", .inline { properties :=
            [("code", .inline { types := some (.single .string) })] })] }),
      ("bookTag", .inline { properties := [("label", .ref "#/components/schemas/label")] }),
      ("label", .inline { types := some (.single .string) }),
      ("entry", .inline
        { oneOf := [.ref "#/components/schemas/book", .ref "#/components/schemas/bookTag"]
          discriminator := some { propertyName := "kind", mapping := [] } })]

theorem shelf_isAscii : ∀ document ∈ [shelf], document.IsAscii := by
  have hleaf : ∀ facets : Facets, facets.discriminator = none →
      Schema.IsAscii (.inline { toFacets := facets }) := by
    intro facets hfacets
    refine .inline (fun _ h => (List.not_mem_nil h).elim) (fun _ h => (List.not_mem_nil h).elim) ?_
    simp [Keywords.mappingTargets, hfacets]
  have htag : Schema.IsAscii (.inline { properties :=
      [("code", .inline { types := some (.single .string) })] }) :=
    .inline (by decide) (by simpa [Keywords.children] using hleaf _ rfl) (by decide)
  have hlabel : Schema.IsAscii (.ref "#/components/schemas/label") := .ref (by decide)
  simp only [List.mem_singleton, forall_eq, Document.IsAscii, shelf, Document.ofSchemas,
    Document.schemas, List.forall_mem_cons]
  refine ⟨⟨by decide, .inline (by decide) (by simpa [Keywords.children] using htag) (by decide)⟩,
    ⟨by decide, .inline (by decide) (by simpa [Keywords.children] using hlabel) (by decide)⟩,
    ⟨by decide, hleaf _ rfl⟩, by decide, .inline (by decide) ?_ (by decide)⟩
  simp only [Keywords.children, List.map_nil, Option.toList_none, List.nil_append,
    List.append_nil, List.forall_mem_cons]
  exact ⟨.ref (by decide), .ref (by decide), fun _ h => (List.not_mem_nil h).elim⟩

/-- A run without a suffix makes of the same schemas the types of the run with one. -/
theorem suffix_is_cosmetic_for_shelf :
    (∀ document ∈ [shelf], document.IsAscii) ∧ IsAscii "" ∧ IsAscii "Dto"
      ∧ ∃ set, (mapDocument {} shelf).2 = .ok set
        ∧ set.pojos.map (·.name.text) = ["Book", "BookTag", "Entry", "BookTag2"]
        ∧ (mapDocument { suffix := "Dto" } shelf).2 = .ok (set.renameAll (.withSuffix "Dto")) := by
  obtain ⟨set, hset, hnames⟩ := exists_ok_of_any_toOption
    (show ((mapDocument {} shelf).2.toOption.any fun set =>
      decide (set.pojos.map (·.name.text) = ["Book", "BookTag", "Entry", "BookTag2"])) = true by
        decide +kernel)
  have hempty : IsAscii "" := by decide
  have hdto : IsAscii "Dto" := by decide
  have hrun := suffix_is_cosmetic shelf_isAscii hempty hdto {} fun _ => false
  refine ⟨shelf_isAscii, hempty, hdto, set, hset, of_decide_eq_true hnames, ?_⟩
  change (mapDocument { suffix := "Dto" } shelf).2 = ((mapDocument {} shelf).2.map _).mapError _
    at hrun
  rw [hrun, hset]
  rfl

end PojoGraph
