import PojoGraph.Proofs.PojoSet.Inlining
import PojoGraph.Proofs.Run.Closure

/-!
# Runs with and without inlining

Whether plain types are put in place of references or kept does not matter to resolution, so that
two runs which differ in nothing else fail alike. If they succeed and map no names, their types
differ by the expansion of aliases alone, and the aliases left by the one are those that run into
a circle in the other.

## Main definitions

* `PojoSet.IsExpansionOf` — what the set with plain types in place of references is to the one in
  which they are kept.

## Main statements

* `Course.areSettled` — the entries of a course are settled.
* `inlining_modes_agree` — the two ways to inline agree.
-/

namespace PojoGraph

/-! ## Entries of a course -/

theorem Course.areSettled {settings : Settings} {isLoaded : String → Bool}
    {documents : List Document} (course : Course settings isLoaded documents) :
    AreSettled course.final.entries where
  nodup := by
    have hnames := congrArg (List.map PojoName.key) course.names_entries
    rw [List.map_map, List.map_map] at hnames
    exact (congrArg List.Nodup hnames).mpr course.nodup_keys_queue
  isLeaf plain hplain := by
    obtain ⟨⟨pending, before, classified, survey⟩, hvisit, hbecomes⟩ :=
      course.exists_becomes_of_mem hplain
    have hvalid := course.valid _ hvisit
    cases hbecomes with
    | plain _ => exact isLeaf_of_classify hvalid
  notAlias pojo hpojo := by
    obtain ⟨⟨pending, before, classified, survey⟩, hvisit, hbecomes⟩ :=
      course.exists_becomes_of_mem hpojo
    have hvalid := course.valid _ hvisit
    cases hbecomes with
    | pojo _ => exact aliased?_of_classify hvalid
    | stub hready hresolve =>
      obtain ⟨-, rfl⟩ := ClassTable.resolve_eq_ok_iff.mp hresolve
      exact Stub.aliased?_toPojo _ _

/-! ## Two sets -/

open Classical in
/-- The set is the other one with aliases expanded. Up to the descriptions of members, its types
are those of the other in their order, without the aliases whose chains end, and with all
references to these expanded. The aliases that it has are those of the other that run into a
circle, and each of them is reported once. -/
structure PojoSet.IsExpansionOf (set unexpanded : PojoSet) : Prop where
  pojos : ∃ expand : DataType → DataType,
    (∀ type : DataType, type.Expands unexpanded.pojos (expand type))
      ∧ set.pojos.map (Pojo.revise (.retype id))
        = (unexpanded.pojos.filter fun pojo => ¬ pojo.IsExpandable unexpanded.pojos).map
          (Pojo.revise (.retype expand))
  aliases : ∀ name, (∃ pojo ∈ set.pojos, pojo.aliased?.isSome ∧ pojo.name = name)
    ↔ ∃ pojo ∈ unexpanded.pojos, pojo.aliased?.isSome ∧ pojo.name = name
      ∧ RunsIntoCycle (PointsTo unexpanded.pojos) pojo
  reported : ∀ pojo ∈ set.pojos, pojo.aliased?.isSome →
    set.warnings.count (.cyclicAlias pojo.name) = 1
  only_reported : ∀ name, .cyclicAlias name ∈ set.warnings →
    ∃ pojo ∈ set.pojos, pojo.aliased?.isSome ∧ pojo.name = name

theorem Revision.isSome_aliased?_retype (f : DataType → DataType) (pojo : Pojo) :
    ((pojo.revise (.retype f)).aliased?.isSome, (pojo.revise (.retype f)).name)
      = (pojo.aliased?.isSome, pojo.name) := by
  rw [Pojo.aliased?_revise, Pojo.name_revise, Option.isSome_map]
  rfl

/-- Names of aliases are left alone where types are changed. -/
theorem exists_alias_iff_of_retype {f g : DataType → DataType} {pojos pojos' : List Pojo}
    (h : pojos.map (Pojo.revise (.retype f)) = pojos'.map (Pojo.revise (.retype g)))
    (name : PojoName) : (∃ pojo ∈ pojos, pojo.aliased?.isSome ∧ pojo.name = name)
      ↔ ∃ pojo ∈ pojos', pojo.aliased?.isSome ∧ pojo.name = name := by
  have hviews := congrArg (List.map fun pojo : Pojo => (pojo.aliased?.isSome, pojo.name)) h
  simp only [List.map_map, Function.comp_def, Revision.isSome_aliased?_retype] at hviews
  have hmem : ∀ pojos : List Pojo, (∃ pojo ∈ pojos, pojo.aliased?.isSome ∧ pojo.name = name)
      ↔ (true, name) ∈ pojos.map fun pojo => (pojo.aliased?.isSome, pojo.name) := by
    simp
  rw [hmem, hmem, hviews]

theorem not_isExpandable_iff {pojos : List Pojo} (hnodup : (pojos.map (·.name.key)).Nodup)
    {pojo : Pojo} (halias : pojo.aliased?.isSome) :
    ¬ pojo.IsExpandable pojos ↔ RunsIntoCycle (PointsTo pojos) pojo := by
  rw [← not_chainEnds_pointsTo_iff hnodup, Pojo.IsExpandable, and_iff_right halias]

/-! ## Warnings -/

/-- Of the warnings of a set only those of inlining tell of aliases in a circle. -/
theorem count_cyclicAlias {classified inlined : List Warning}
    (hclassified : ∀ warning ∈ classified, warning.isOfClassification = true)
    (exclusion : Exclusion) (pojos : List Pojo) (name : PojoName) :
    (classified ++ (inlined ++ danglingReferences exclusion pojos)).count (.cyclicAlias name)
      = inlined.count (.cyclicAlias name) := by
  have hbefore : classified.count (.cyclicAlias name) = 0 :=
    List.count_eq_zero.mpr fun hmem => by cases hclassified _ hmem
  have hafter : (danglingReferences exclusion pojos).count (.cyclicAlias name) = 0 := by
    refine List.count_eq_zero.mpr fun hmem => ?_
    obtain ⟨pojo, -, reference, -, heq⟩ := exists_of_mem_danglingReferences hmem
    cases heq
  rw [List.count_append, List.count_append, hbefore, hafter, Nat.zero_add, Nat.add_zero]

/-! ## Two runs -/

section

variable {settings : Settings} {entries : List Resolved}

/-- Without name mappings the aliases of a final set are those that are left. -/
theorem exists_alias_iff_exists_kept (hmapping : settings.mapName = id) (exclusion : Exclusion)
    (name : PojoName) :
    (∃ pojo ∈ (PojoSet.ofEntries settings exclusion entries).pojos,
        pojo.aliased?.isSome ∧ pojo.name = name)
      ↔ ∃ pojo ∈ keptPojos settings.referenceInlining entries,
        pojo.aliased?.isSome ∧ pojo.name = name := by
  rw [pojos_ofEntries]
  simp [Pojo.aliased?_revise, Revision.name_ofEntries hmapping]

/-- Without name mappings, putting plain types in place of references expands the set in which
they are kept. -/
theorem isExpansionOf_toSet (hmappings : settings.nameMappings = []) (h : AreSettled entries)
    {classified : List Warning}
    (hclassified : ∀ warning ∈ classified, warning.isOfClassification = true)
    (exclusion : Exclusion) :
    (Resolution.toSet { settings with referenceInlining := .simple } exclusion
        ⟨entries, classified⟩).IsExpansionOf
      (Resolution.toSet { settings with referenceInlining := .never } exclusion
        ⟨entries, classified⟩) := by
  have hmapping : settings.mapName = id := Settings.mapName_of_nil hmappings
  have hsimple : Settings.mapName { settings with referenceInlining := .simple } = id := hmapping
  have hunexpanded : (Resolution.toSet { settings with referenceInlining := .never } exclusion
      ⟨entries, classified⟩).pojos = unexpandedPojos settings entries :=
    pojos_ofEntries _ exclusion entries
  have haliases := h.aliasesAre hmapping
  have hnodup := h.nodup_keys_unexpandedPojos hmapping
  have hretype := h.retype_pojos_ofEntries hmapping exclusion
  have hcount : ∀ name, (Resolution.toSet { settings with referenceInlining := .simple } exclusion
      ⟨entries, classified⟩).warnings.count (.cyclicAlias name)
        = (PojoSet.ofResolved .simple entries).warnings.count (.cyclicAlias name) :=
    count_cyclicAlias hclassified exclusion _
  have hreported : ∀ name, .cyclicAlias name ∈ (PojoSet.ofResolved .simple entries).warnings
      ↔ ∃ pojo ∈ (Resolution.toSet { settings with referenceInlining := .simple } exclusion
        ⟨entries, classified⟩).pojos, pojo.aliased?.isSome ∧ pojo.name = name := by
    intro name
    rw [h.cyclicAlias_mem_warnings_iff]
    exact (exists_alias_iff_exists_kept hsimple exclusion name).symm
  refine ⟨?_, ?_, ?_, ?_⟩
  · rw [hunexpanded]
    refine ⟨_, expands_substituteAll haliases fun plain hplain => ?_, hretype⟩
    exact h.isLeaf plain (mem_plainMembers_iff.mp hplain)
  · intro name
    rw [hunexpanded]
    refine (exists_alias_iff_of_retype hretype name).trans (exists_congr fun pojo => ?_)
    simp only [List.mem_filter, decide_eq_true_eq, and_assoc]
    refine and_congr_right fun _ => ⟨?_, ?_⟩
    · rintro ⟨hkept, halias, hname⟩
      exact ⟨halias, hname, (not_isExpandable_iff hnodup halias).mp hkept⟩
    · rintro ⟨halias, hname, hcycle⟩
      exact ⟨(not_isExpandable_iff hnodup halias).mpr hcycle, halias, hname⟩
  · intro pojo hpojo halias
    rw [hcount]
    exact List.count_eq_one_of_mem h.nodup_warnings
      ((hreported pojo.name).mpr ⟨pojo, hpojo, halias, rfl⟩)
  · intro name hmem
    rw [← List.count_pos_iff, hcount, List.count_pos_iff] at hmem
    exact (hreported name).mp hmem

end

section

variable (settings : Settings) (isLoaded : String → Bool) (documents : List Document)

/-- **The two ways to inline agree**, if no names are mapped. The runs fail alike; and if they
succeed, the set with plain types in place of references is the set in which they are kept, with
its aliases expanded. -/
theorem inlining_modes_agree (hmappings : settings.nameMappings = []) :
    (∀ error,
        (mapDocuments { settings with referenceInlining := .simple } isLoaded documents).2
            = .error error
          ↔ (mapDocuments { settings with referenceInlining := .never } isLoaded documents).2
            = .error error)
      ∧ ∀ set unexpanded,
        (mapDocuments { settings with referenceInlining := .simple } isLoaded documents).2
            = .ok set →
          (mapDocuments { settings with referenceInlining := .never } isLoaded documents).2
            = .ok unexpanded →
          set.IsExpansionOf unexpanded := by
  have hsimple := snd_mapDocuments { settings with referenceInlining := .simple } isLoaded documents
  have hnever := snd_mapDocuments { settings with referenceInlining := .never } isLoaded documents
  rw [resolveDocuments_inlining] at hsimple hnever
  constructor
  · intro error
    rw [hsimple, hnever]
    cases resolveDocuments settings isLoaded documents <;> simp [Except.map]
  · intro set unexpanded hset hunexpanded
    obtain ⟨course, -⟩ := exists_course hset
    obtain ⟨classified, hclassified, hresolved⟩ := course.resolveDocuments_eq
    rw [resolveDocuments_inlining] at hresolved
    rw [hset, hresolved] at hsimple
    rw [hunexpanded, hresolved] at hnever
    obtain rfl := Except.ok.inj hsimple
    obtain rfl := Except.ok.inj hnever
    exact isExpansionOf_toSet hmappings course.areSettled hclassified course.exclusion

end

/-- Pets with a key that is an id, and with a guide at the end of a chain into a circle. -/
def chainedPets : Document :=
  .ofSchemas
    [("Pet", .inline { properties :=
      [("key", .ref "#/components/schemas/Key"), ("guide", .ref "#/components/schemas/Tail")] }),
      ("Key", .ref "#/components/schemas/Id"),
      ("Id", .inline { types := some (.single .string) }),
      ("Tail", .ref "#/components/schemas/Ring"),
      ("Ring", .ref "#/components/schemas/Loop"),
      ("Loop", .ref "#/components/schemas/Ring")]

/-- Three of five aliases are left, and the other two are expanded. -/
theorem inlining_modes_agree_for_chains :
    ∃ set unexpanded, (mapDocument { referenceInlining := .simple } chainedPets).2 = .ok set
      ∧ (mapDocument { referenceInlining := .never } chainedPets).2 = .ok unexpanded
      ∧ set.pojos.map (·.name.raw) = ["Pet", "Tail", "Ring", "Loop"]
      ∧ unexpanded.pojos.map (·.name.raw) = ["Pet", "Key", "Id", "Tail", "Ring", "Loop"]
      ∧ set.IsExpansionOf unexpanded := by
  obtain ⟨set, hset, hnames⟩ := exists_ok_of_any_toOption
    (show ((mapDocument { referenceInlining := .simple } chainedPets).2.toOption.any fun set =>
      decide (set.pojos.map (·.name.raw) = ["Pet", "Tail", "Ring", "Loop"])) = true
      by decide +kernel)
  obtain ⟨unexpanded, hunexpanded, hnames'⟩ := exists_ok_of_any_toOption
    (show ((mapDocument { referenceInlining := .never } chainedPets).2.toOption.any fun set =>
      decide (set.pojos.map (·.name.raw) = ["Pet", "Key", "Id", "Tail", "Ring", "Loop"])) = true
      by decide +kernel)
  refine ⟨set, unexpanded, hset, hunexpanded, of_decide_eq_true hnames,
    of_decide_eq_true hnames', ?_⟩
  exact (inlining_modes_agree {} (fun _ => false) [chainedPets] rfl).2 set unexpanded
    hset hunexpanded

end PojoGraph
