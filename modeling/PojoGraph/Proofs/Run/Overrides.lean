import PojoGraph.Proofs.Classification.Bottom
import PojoGraph.Proofs.Run.Origins

/-!
# Classes in the final set

Settings may have a class for a scalar. It is given to the scalar when the schema of that is mapped,
and nothing is given a class at any other time. Afterwards types are renamed, and references are
replaced by plain types, which have been mapped themselves. So in the final set each type has just
the class that settings have for it. Only the keys of maps, which are strings, never have one.

## Main definitions

* `DataType.spine` — the types in a type, keys of maps left out.
* `DataType.HasClasses` — the types in a type have the classes that settings have for them.

## Main statements

* `hasClasses_mapSchema` — mapping gives classes as settings have them.
* `Course.hasClasses_revision` — what becomes of types in the final set keeps their classes.
* `final_classes_exact` — each type in the final set has the class that settings have for it.
-/

namespace PojoGraph

/-! ## Types with classes -/

/-- Only scalars have classes. -/
theorem Settings.overrideFor_eq_none {settings : Settings} {type : DataType}
    (h : type.canonicalName? = none) : settings.overrideFor type = none := by
  have hformat : type.format? = none := by
    cases type with
    | leaf leaf traits =>
      cases leaf with
      | scalar scalar => cases h
      | _ => rfl
    | list item traits => rfl
    | map key value traits => rfl
  simp [overrideFor, formatOverride, classOverride, h, hformat]

/-- The class that settings have for a type does not depend on the traits of the type. -/
theorem Settings.overrideFor_leaf (settings : Settings) (leaf : Leaf) (traits traits' : Traits) :
    settings.overrideFor (.leaf leaf traits) = settings.overrideFor (.leaf leaf traits') := by
  cases leaf with
  | scalar scalar => cases scalar <;> rfl
  | _ => rfl

namespace DataType

variable {settings : Settings} {type : DataType}

/-- The type and all types in it, other than the keys of maps. -/
def spine : DataType → List DataType
  | leaf l traits => [leaf l traits]
  | list item traits => list item traits :: item.spine
  | map key value traits => map key value traits :: value.spine

/-- The types in the type have the classes that settings have for them; keys of maps are strings
without a class. -/
inductive HasClasses (settings : Settings) : DataType → Prop where
  | leaf {l : Leaf} {traits : Traits}
      (h : traits.classOverride = settings.overrideFor (.leaf l traits)) :
    HasClasses settings (.leaf l traits)
  | list {item : DataType} {traits : Traits} (h : traits.classOverride = none)
      (hitem : HasClasses settings item) :
    HasClasses settings (.list item traits)
  | map {value : DataType} {traits : Traits} (h : traits.classOverride = none)
      (hvalue : HasClasses settings value) :
    HasClasses settings (.map (.scalar (.string .plain)) value traits)

namespace HasClasses

theorem of_mem_spine (h : type.HasClasses settings) {node : DataType} (hnode : node ∈ type.spine) :
    node.traits.classOverride = settings.overrideFor node := by
  induction h with
  | leaf h =>
    rw [List.mem_singleton.mp hnode]
    exact h
  | list h _ ih =>
    rcases List.mem_cons.mp hnode with rfl | hnode
    · rw [Settings.overrideFor_eq_none rfl]
      exact h
    · exact ih hnode
  | map h _ ih =>
    rcases List.mem_cons.mp hnode with rfl | hnode
    · rw [Settings.overrideFor_eq_none rfl]
      exact h
    · exact ih hnode

/-- What is not on the spine is a key. -/
theorem mem_spine_or_eq (h : type.HasClasses settings) {node : DataType}
    (hnode : node ∈ type.nodes) : node ∈ type.spine ∨ node = .scalar (.string .plain) := by
  induction h with
  | leaf h => exact .inl hnode
  | list h _ ih =>
    rcases List.mem_cons.mp hnode with rfl | hnode
    · exact .inl List.mem_cons_self
    · exact (ih hnode).imp_left (List.mem_cons_of_mem _)
  | map h _ ih =>
    rcases List.mem_cons.mp hnode with rfl | hnode
    · exact .inl List.mem_cons_self
    rcases List.mem_append.mp hnode with hkey | hvalue
    · exact .inr (List.mem_singleton.mp hkey)
    · exact (ih hvalue).imp_left (List.mem_cons_of_mem _)

/-! ## Changes of types -/

theorem rename (h : type.HasClasses settings) (f : PojoName → PojoName) :
    (type.rename f).HasClasses settings := by
  induction h with
  | @leaf l traits h =>
    cases l with
    | object name => exact .leaf (h.trans (Settings.overrideFor_eq_none rfl).symm)
    | _ => exact .leaf h
  | list h _ ih => exact .list h ih
  | map h _ ih => exact .map h ih

theorem substitute (h : type.HasClasses settings) {replacement : Replacement}
    (hreplacement : replacement.type.HasClasses settings) :
    (type.substitute replacement).HasClasses settings := by
  induction h with
  | @leaf l traits h =>
    cases l with
    | object name =>
      rw [DataType.substitute]
      split
      · exact hreplacement
      · exact .leaf h
    | _ => exact .leaf h
  | list h _ ih => exact .list h ih
  | map h _ ih => exact .map h ih

theorem substituteAll (h : type.HasClasses settings) {replacements : List Replacement}
    (hreplacements : ∀ replacement ∈ replacements, replacement.type.HasClasses settings) :
    (type.substituteAll replacements).HasClasses settings := by
  induction replacements generalizing type with
  | nil => exact h
  | cons first rest ih =>
    exact ih (h.substitute (hreplacements first List.mem_cons_self))
      fun replacement hmem => hreplacements replacement (List.mem_cons_of_mem _ hmem)

end HasClasses

end DataType

/-- **Mapping gives classes as settings have them.** -/
theorem hasClasses_mapSchema (settings : Settings) (owner : PojoName) (member : String)
    (registry : Registry) (schema : Schema) :
    (mapSchema settings owner member registry schema).type.HasClasses settings := by
  have hother : ∀ (leaf : Leaf) (traits : Traits), traits.classOverride = none →
      (DataType.leaf leaf traits).canonicalName? = none →
        (DataType.leaf leaf traits).HasClasses settings :=
    fun leaf traits hnone hcanonical =>
      .leaf (hnone.trans (Settings.overrideFor_eq_none hcanonical).symm)
  induction schema using Schema.mappingInduction with
  | ref target =>
    rw [mapSchema_ref]
    exact hother _ _ rfl rfl
  | list k item hform hitems ih =>
    rw [mapSchema_list _ _ _ _ hform hitems]
    exact .list rfl ih
  | map k value hform hadditional ih =>
    rw [mapSchema_map _ _ _ _ hform hadditional]
    exact .map rfl ih
  | last k hlist hmap =>
    rw [mapSchema_inline]
    cases hform : k.form with
    | map => exact absurd hform hmap
    | list =>
      rw [hlist hform]
      exact .list rfl (hother _ _ rfl rfl)
    | scalar scalar constraints => exact .leaf (settings.overrideFor_leaf ..)
    | _ => exact hother _ _ rfl rfl

theorem IsMapped.hasClasses {settings : Settings} {type : DataType} (h : IsMapped settings type) :
    type.HasClasses settings := by
  obtain ⟨owner, member, registry, schema, rfl⟩ := h
  exact hasClasses_mapSchema settings owner member registry schema

/-! ## Plain types -/

namespace Course

variable {settings : Settings} {isLoaded : String → Bool} {documents : List Document}
  {course : Course settings isLoaded documents}

theorem hasClasses_replacementsOf :
    ∀ replacement ∈ replacementsOf settings.referenceInlining course.final.entries,
      replacement.type.HasClasses settings := by
  have hplains : ∀ plain ∈ course.plains, plain.type.HasClasses settings :=
    fun plain hplain => (isMapped_of_mem_plains hplain).hasClasses
  intro replacement hreplacement
  cases hinlining : settings.referenceInlining with
  | never =>
    rw [hinlining] at hreplacement
    cases hreplacement
  | simple =>
    rw [hinlining] at hreplacement
    obtain ⟨plain, hplain, final, hfinal, rfl⟩ := mem_ofPlains_iff.mp hreplacement
    obtain ⟨path, hleads⟩ := (finalType?_eq_some_iff hplain).mp hfinal
    exact hleads.induction_on_types hplains (hplains plain hplain)

/-- **What becomes of types in the final set keeps their classes.** -/
theorem hasClasses_revision {type : DataType} (h : type.HasClasses settings) :
    (course.revision.type type).HasClasses settings := by
  rw [revision, Revision.type_ofEntries_eq]
  exact (h.substituteAll hasClasses_replacementsOf).rename settings.mapName

end Course

/-! ## Runs -/

/-- **Each type in the final set has the class that settings have for it.** After a run that
succeeds, take a type that some type of the set holds, at any depth, and a type in it other than the
key of a map. It has the class that settings have for it, and none unless it is a scalar. Keys of
maps are plain strings without a class. -/
theorem final_classes_exact {settings : Settings} {isLoaded : String → Bool}
    {documents : List Document} {set : PojoSet}
    (h : (mapDocuments settings isLoaded documents).2 = .ok set) :
    ∀ pojo ∈ set.pojos, ∀ type, pojo.Holds type →
      (∀ node ∈ type.spine, node.traits.classOverride = settings.overrideFor node
        ∧ ((∀ scalar traits, node ≠ .leaf (.scalar scalar) traits) →
          node.traits.classOverride = none))
      ∧ ∀ node ∈ type.nodes, node ∈ type.spine ∨ node = .scalar (.string .plain) := by
  obtain ⟨course, hmakes⟩ := exists_course h
  intro pojo hpojo type hholds
  obtain ⟨mapped, hmapped, rfl⟩ :=
    Course.exists_mapSchema_of_holds hmakes (copiesAgree_mapDocuments h) hpojo hholds
  have hclasses : (course.revision.type mapped).HasClasses settings :=
    Course.hasClasses_revision hmapped.hasClasses
  refine ⟨fun node hnode => ⟨hclasses.of_mem_spine hnode, fun hother => ?_⟩,
    fun node => hclasses.mem_spine_or_eq⟩
  rw [hclasses.of_mem_spine hnode]
  apply Settings.overrideFor_eq_none
  cases node with
  | leaf leaf traits =>
    cases leaf with
    | scalar scalar => exact absurd rfl (hother scalar traits)
    | _ => rfl
  | list item traits => rfl
  | map key value traits => rfl

/-- Pets with a day of birth, which is described elsewhere, and several names. -/
def namedPets : Document :=
  .ofSchemas
    [("Day", .inline { types := some (.single .string), format := some "date" }),
      ("Pet", .inline { properties :=
        [("born", .ref "#/components/schemas/Day"),
          ("names", .inline
            { types := some (.single .array)
              items := some (.inline { types := some (.single .string) }) })] })]

/-- Classes for strings and for dates. -/
def classSettings : Settings where
  classMappings := [⟨"string", "Text", none⟩]
  formatMappings := [⟨"date", "LocalDate", some "java.time.LocalDate"⟩]

/-- The day of birth has the class for dates, and each name that for strings. The list of names has
none. -/
theorem final_classes_exact_pets :
    ∃ set, (mapDocuments classSettings (fun _ => false) [namedPets]).2 = .ok set
      ∧ ∃ object, .object object ∈ set.pojos
        ∧ object.members.map (·.type)
          = [(DataType.scalar (.string .date)).withOverride
              (some ⟨"LocalDate", some "java.time.LocalDate"⟩),
            .list ((DataType.scalar (.string .plain)).withOverride (some ⟨"Text", none⟩)) {}]
        ∧ ∀ type, (Pojo.object object).Holds type → ∀ node ∈ type.spine,
          node.traits.classOverride = classSettings.overrideFor node := by
  obtain ⟨set, hset, hobjects⟩ := exists_ok_of_any_toOption
    (show ((mapDocuments classSettings (fun _ => false) [namedPets]).2.toOption.any fun set =>
      (set.pojos.filterMap (·.object?)).any fun object => object.members.map (·.type)
        == [(DataType.scalar (.string .date)).withOverride
            (some ⟨"LocalDate", some "java.time.LocalDate"⟩),
          .list ((DataType.scalar (.string .plain)).withOverride (some ⟨"Text", none⟩)) {}]) = true
      by decide +kernel)
  obtain ⟨object, hobject, htypes⟩ := exists_object_of_any hobjects
  refine ⟨set, hset, object, hobject, beq_iff_eq.mp htypes, fun type hholds node hnode => ?_⟩
  exact ((final_classes_exact hset _ hobject type hholds).1 node hnode).1

end PojoGraph
