import PojoGraph.Proofs.Resolution.Revised
import PojoGraph.Proofs.Suffix.Names

/-!
# Classification under a suffix

The suffix of a run stands in all names that a classification gives, and nowhere else. Under
another suffix an ASCII schema turns out to be the same, the same schemas are found in it, and
what is warned of is the same, but for the suffix of the names. This is shown part by part: begun
with a survey that has a suffix, a part gives the same as it gives without, with the suffix.

## Main definitions

* `Schema.IsAscii` — all properties and references of a schema are ASCII texts.
* `Survey.withSuffix`, `Warning.rename` — what a classification gives, under other names.

## Main statements

* `mapSchema_withSuffix` — types of schemas differ in the suffix alone.
* `classify_withSuffix` — **so does what schemas turn out to be**.
-/

namespace PojoGraph

open Text

/-! ## ASCII schemas -/

/-- The properties that the schema declares, at any depth, and its references are ASCII texts. -/
structure Schema.IsAscii (schema : Schema) : Prop where
  properties : ∀ k, Relation.ReflTransGen Schema.IsChild (.inline k) schema →
    ∀ property ∈ k.properties, Text.IsAscii property.1
  references : ∀ reference ∈ schema.references, Text.IsAscii reference

namespace Schema.IsAscii

variable {schema inner : Schema}

theorem ref {target : String} (h : Text.IsAscii target) : IsAscii (.ref target) where
  properties k hk := by
    rcases hk.cases_tail with heq | ⟨middle, -, parent, hparent, -⟩
    · cases heq
    · cases hparent
  references reference hreference := by
    rw [references_ref, List.mem_singleton] at hreference
    rwa [hreference]

/-- A schema is ASCII if its properties, the schemas in it and the targets of its discriminator
are. -/
theorem inline {k : Keywords Schema} (hproperties : ∀ property ∈ k.properties,
      Text.IsAscii property.1)
    (hchildren : ∀ child ∈ k.children, child.IsAscii)
    (htargets : ∀ target ∈ k.mappingTargets, Text.IsAscii target) : IsAscii (.inline k) where
  properties inner hinner := by
    rcases hinner.cases_tail with heq | ⟨middle, hmiddle, parent, hparent, hchild⟩
    · cases heq
      exact hproperties
    · cases hparent
      exact (hchildren middle hchild).properties inner hmiddle
  references reference hreference := by
    rw [references_inline, List.mem_append] at hreference
    rcases hreference with hreference | hreference
    · obtain ⟨child, hchild, hmem⟩ := List.mem_flatMap.mp hreference
      exact (hchildren child hchild).references reference hmem
    · exact htargets reference hreference

theorem child {k : Keywords Schema} (h : IsAscii (.inline k)) {child : Schema}
    (hchild : child ∈ k.children) : child.IsAscii where
  properties inner hinner := h.properties inner (hinner.tail ⟨k, rfl, hchild⟩)
  references reference hreference := by
    refine h.references reference ?_
    rw [references_inline]
    exact List.mem_append_left _ (List.mem_flatMap.mpr ⟨child, hchild, hreference⟩)

theorem of_inside (h : schema.IsAscii) (hinside : inner.Inside schema) : inner.IsAscii := by
  induction hinside with
  | single hchild =>
    obtain ⟨k, rfl, hmem⟩ := hchild
    exact h.child hmem
  | tail _ hchild ih =>
    obtain ⟨k, rfl, hmem⟩ := hchild
    exact ih (h.child hmem)

theorem own {k : Keywords Schema} (h : IsAscii (.inline k)) {property : String × Schema}
    (hproperty : property ∈ k.properties) : Text.IsAscii property.1 :=
  h.properties k .refl property hproperty

/-- What is found in an ASCII schema is one. -/
theorem of_mem_discovered (h : schema.IsAscii) (hmem : inner ∈ schema.discovered) :
    inner.IsAscii := by
  cases hself : schema.findsItself with
  | true =>
    rw [Schema.discovered_of_findsItself hself, List.mem_singleton] at hmem
    exact hmem ▸ h
  | false => exact h.of_inside (Schema.inside_of_mem_discovered hself hmem)

end Schema.IsAscii

theorem isAscii_tag (kind : CompositionKind) : IsAscii kind.tag := by
  cases kind <;> decide

theorem isAscii_valueMember : IsAscii valueMember := by
  decide

theorem isAscii_additionalMember : IsAscii additionalMember := by
  decide

/-! ## Names of what a classification gives -/

/-- The settings with another suffix. -/
def Settings.withSuffix (suffix : String) (settings : Settings) : Settings :=
  { settings with suffix }

/-- The warning with all names of types changed. -/
def Warning.rename (f : PojoName → PojoName) : Warning → Warning
  | unrecognizedShape pojo member => .unrecognizedShape (f pojo) member
  | danglingReference pojo reference => .danglingReference (f pojo) (f reference)
  | incompleteEnum pojo missing => .incompleteEnum (f pojo) missing
  | nonStringEnum pojo => .nonStringEnum (f pojo)
  | cyclicAlias pojo => .cyclicAlias (f pojo)

/-- The schema under its name with another suffix. -/
def Pending.withSuffix (suffix : String) (pending : Pending) : Pending :=
  { pending with name := pending.name.withSuffix suffix }

/-- The type of a schema, with a suffix in all names. -/
def Mapped.withSuffix (suffix : String) (mapped : Mapped) : Mapped where
  type := mapped.type.rename (PojoName.withSuffix suffix)
  found := mapped.found.map (Pending.withSuffix suffix)
  warnings := mapped.warnings.map (Warning.rename (PojoName.withSuffix suffix))
  registry := mapped.registry.withSuffix suffix

/-- The survey with a suffix in all names. -/
def Survey.withSuffix (suffix : String) (survey : Survey) : Survey where
  registry := survey.registry.withSuffix suffix
  found := survey.found.map (Pending.withSuffix suffix)
  warnings := survey.warnings.map (Warning.rename (PojoName.withSuffix suffix))

theorem Survey.warn_withSuffix (survey : Survey) (suffix : String) (warning : Warning) :
    (survey.warn warning).withSuffix suffix
      = (survey.withSuffix suffix).warn (warning.rename (.withSuffix suffix)) := by
  simp only [warn, withSuffix, List.map_append]
  rfl

/-- A type without references has no names to change. -/
theorem DataType.rename_of_references {type : DataType} (h : type.references = [])
    (f : PojoName → PojoName) : type.rename f = type := by
  induction type with
  | leaf l traits =>
    cases l with
    | object name => simp [references] at h
    | _ => rfl
  | list item traits ih => rw [rename, ih h]
  | map key value traits ihk ihv =>
    rw [references, List.append_eq_nil_iff] at h
    rw [rename, ihk h.1, ihv h.2]

theorem DataType.references_withOverride (type : DataType) (override : Option ClassOverride) :
    (type.withOverride override).references = type.references := by
  cases type with
  | leaf l traits => cases l <;> rfl
  | list item traits => rfl
  | map key value traits => rfl

section

variable {settings : Settings} {owner : PojoName} {suffix : String} (hsuffix : IsAscii suffix)
  (howner : owner.IsUnsuffixed)

include hsuffix howner

/-! ## Types of schemas -/

/-- **The type of a schema differs in the suffix alone.** -/
theorem mapSchema_withSuffix {member : String} (hmember : IsAscii member) (registry : Registry)
    (schema : Schema) :
    mapSchema (settings.withSuffix suffix) (owner.withSuffix suffix) member
        (registry.withSuffix suffix) schema
      = (mapSchema settings owner member registry schema).withSuffix suffix := by
  induction schema using Schema.childInduction with
  | ref target => rw [mapSchema_ref, mapSchema_ref]; rfl
  | inline k ih =>
    rw [mapSchema_inline, mapSchema_inline]
    cases k.form with
    | reference target => rfl
    | object =>
      have hclaim := Registry.claim_withSuffix registry hsuffix
        (howner.ofMember hmember)
      simp only [PojoName.ofMember_withSuffix, hclaim]
      rfl
    | enum values => rfl
    | scalar scalar constraints =>
      dsimp only [Mapped.withSuffix]
      rw [DataType.rename_of_references (DataType.references_withOverride _ _)]
      rfl
    | list =>
      cases hitems : k.items with
      | none => rfl
      | some item =>
        dsimp only
        rw [ih item (Keywords.mem_children_of_items hitems)]
        rfl
    | map =>
      cases hadditional : k.additional with
      | none => rfl
      | some additional =>
        cases additional with
        | flag _ => rfl
        | schema value =>
          dsimp only
          rw [ih value (Keywords.mem_children_of_additional hadditional)]
          rfl
    | freeForm => rfl
    | unrecognized => rfl

/-! ## Members and branches -/

theorem mapType_withSuffix {member : String} (hmember : IsAscii member) (schema : Schema)
    (survey : Survey) :
    (survey.withSuffix suffix).mapType (settings.withSuffix suffix) (owner.withSuffix suffix) member
        schema
      = ((survey.mapType settings owner member schema).1.rename (PojoName.withSuffix suffix),
        (survey.mapType settings owner member schema).2.withSuffix suffix) := by
  simp only [Survey.mapType, Survey.withSuffix, mapSchema_withSuffix hsuffix howner hmember,
    Mapped.withSuffix, List.map_append]

theorem discover_withSuffix {tail : String} (htail : IsAscii tail) (schema : Schema)
    (survey : Survey) :
    (survey.withSuffix suffix).discover ((owner.withSuffix suffix).append tail) schema
      = ((survey.discover (owner.append tail) schema).1.withSuffix suffix,
        (survey.discover (owner.append tail) schema).2.withSuffix suffix) := by
  simp only [Survey.discover, Survey.withSuffix, PojoName.append_withSuffix,
    Registry.claim_withSuffix _ hsuffix (howner.append htail), List.map_append]
  rfl

omit hsuffix howner in
/-- A state carried through a list under another form. -/
theorem mapWithState_map {α β σ : Type} {f f' : σ → α → β × σ} {act : β → β} {carry : σ → σ}
    (as : List α) (h : ∀ a ∈ as, ∀ state, f' (carry state) a
      = (act (f state a).1, carry (f state a).2)) (state : σ) :
    mapWithState f' (carry state) as
      = ((mapWithState f state as).1.map act, carry (mapWithState f state as).2) := by
  induction as generalizing state with
  | nil => rfl
  | cons a rest ih =>
    have hrest := ih fun other hother => h other (List.mem_cons_of_mem _ hother)
    simp only [mapWithState, h a List.mem_cons_self, hrest, List.map_cons]

theorem additionalOf_withSuffix (k : Keywords Schema) (survey : Survey) :
    additionalOf (settings.withSuffix suffix) (owner.withSuffix suffix) k (survey.withSuffix suffix)
      = ((additionalOf settings owner k survey).1.map (DataType.rename (.withSuffix suffix)),
        (additionalOf settings owner k survey).2.withSuffix suffix) := by
  unfold additionalOf
  cases k.additional with
  | none => rfl
  | some additional =>
    cases additional with
    | flag allowed => cases allowed <;> rfl
    | schema value =>
      cases hempty : value.isEmpty with
      | true => simp only [hempty, if_true]; rfl
      | false =>
        simp only [hempty, Bool.false_eq_true, if_false,
          mapType_withSuffix hsuffix howner isAscii_additionalMember, Prod.mk.injEq, and_true]
        generalize (survey.mapType settings owner additionalMember value).1 = type
        cases type with
        | leaf l traits => cases l <;> rfl
        | list item traits => rfl
        | map key value traits => rfl

variable (settings) in
theorem branchOf_withSuffix (kind : CompositionKind) (isNumbered : Bool) (schema : Schema)
    (state : Nat × Survey) :
    branchOf (settings.withSuffix suffix) (owner.withSuffix suffix) kind isNumbered
        (Prod.map id (Survey.withSuffix suffix) state) schema
      = ((branchOf settings owner kind isNumbered state schema).1.withSuffix suffix,
        Prod.map id (Survey.withSuffix suffix)
          (branchOf settings owner kind isNumbered state schema).2) := by
  cases schema with
  | ref target => rfl
  | inline inner =>
    have htag : IsAscii (if isNumbered then kind.tag ++ toString state.1 else kind.tag) := by
      cases isNumbered with
      | true => exact (isAscii_tag kind).append (isAscii_toString _)
      | false => exact isAscii_tag kind
    simp only [branchOf, Prod.map_fst, Prod.map_snd, id_eq,
      discover_withSuffix hsuffix howner htag]
    rfl

theorem branchesOf_withSuffix (kind : CompositionKind) (schemas : List Schema) (survey : Survey) :
    branchesOf (settings.withSuffix suffix) (owner.withSuffix suffix) kind schemas
        (survey.withSuffix suffix)
      = ((branchesOf settings owner kind schemas survey).1.map (List.map (.withSuffix suffix)),
        (branchesOf settings owner kind schemas survey).2.withSuffix suffix) := by
  unfold branchesOf
  cases schemas.filter (!·.isNullType) with
  | nil => rfl
  | cons branch rest =>
    have hbranches := fun isNumbered => mapWithState_map (branch :: rest)
      (fun schema _ => branchOf_withSuffix settings hsuffix howner kind isNumbered schema)
      (0, survey)
    simp only [Prod.map_apply, id_eq] at hbranches
    simp only [List.isEmpty_cons, Bool.false_eq_true, if_false, hbranches]
    rfl

/-! ## Types -/

variable (settings) in
theorem plainOf_withSuffix (schema : Schema) (description : Option String) (isNullable : Bool)
    (survey : Survey) :
    plainOf (settings.withSuffix suffix) (owner.withSuffix suffix) schema description isNullable
        (survey.withSuffix suffix)
      = ((plainOf settings owner schema description isNullable survey).1.revise
          (.rename (.withSuffix suffix)),
        (plainOf settings owner schema description isNullable survey).2.withSuffix suffix) := by
  simp only [plainOf, mapType_withSuffix hsuffix howner isAscii_valueMember]
  rfl

section

variable {k : Keywords Schema} (hascii : Schema.IsAscii (.inline k))

include hascii

theorem membersOf_withSuffix (survey : Survey) :
    membersOf (settings.withSuffix suffix) (owner.withSuffix suffix) k (survey.withSuffix suffix)
      = ((membersOf settings owner k survey).1.map (Member.rename (.withSuffix suffix)),
        (membersOf settings owner k survey).2.withSuffix suffix) := by
  refine mapWithState_map _ (fun property hproperty survey => ?_) survey
  simp only [memberOf, mapType_withSuffix hsuffix howner (hascii.own hproperty)]
  rfl

theorem objectOf_withSuffix (survey : Survey) :
    objectOf (settings.withSuffix suffix) (owner.withSuffix suffix) k (survey.withSuffix suffix)
      = ((objectOf settings owner k survey).1.revise (.rename (.withSuffix suffix)),
        (objectOf settings owner k survey).2.withSuffix suffix) := by
  simp only [objectOf, membersOf_withSuffix hsuffix howner hascii,
    additionalOf_withSuffix hsuffix howner, ObjectPojo.revise_eq]
  rfl

omit hsuffix howner hascii in
theorem sketchOf_withSuffix (discriminator : DiscriminatorKeyword) :
    sketchOf (settings.withSuffix suffix) discriminator
      = (sketchOf settings discriminator).rename (.withSuffix suffix) := by
  simp only [sketchOf, DiscriminatorSketch.rename, DiscriminatorSketch.mk.injEq, true_and]
  cases discriminator.mapping.isEmpty with
  | true => rfl
  | false =>
    simp only [Bool.false_eq_true, if_false, Option.map_some, List.map_map]
    rfl

theorem stubOf_withSuffix (survey : Survey) :
    stubOf (settings.withSuffix suffix) (owner.withSuffix suffix) k (survey.withSuffix suffix)
      = ((stubOf settings owner k survey).1.revise (.rename (.withSuffix suffix)),
        (stubOf settings owner k survey).2.withSuffix suffix) := by
  have hdiscriminator : k.discriminator.map (sketchOf (settings.withSuffix suffix))
      = (k.discriminator.map (sketchOf settings)).map
        (DiscriminatorSketch.rename (.withSuffix suffix)) := by
    rw [Option.map_map]
    exact Option.map_congr fun _ _ => sketchOf_withSuffix _
  simp only [stubOf, branchesOf_withSuffix hsuffix howner,
    membersOf_withSuffix hsuffix howner hascii, additionalOf_withSuffix hsuffix howner,
    hdiscriminator]
  generalize k.discriminator.map (sketchOf settings) = discriminator
  simp only [Stub.revise, Option.map_map, UnionSketch.rename, Function.comp_def]
  cases k.oneOf.isEmpty <;> rfl

omit hsuffix howner hascii in
/-- The values of an enum, and what is missing of their descriptions, have no suffix. -/
theorem enumOf_withSuffix (values : List String) (survey : Survey) :
    enumOf (settings.withSuffix suffix) (owner.withSuffix suffix) k values
        (survey.withSuffix suffix)
      = ((enumOf settings owner k values survey).map fun (pojo, survey) =>
          (pojo.revise (.rename (.withSuffix suffix)), survey.withSuffix suffix)).mapError
        (Fault.rename (.withSuffix suffix)) := by
  have hrule : (settings.withSuffix suffix).enumDescription = settings.enumDescription := rfl
  rw [enumOf, enumOf, hrule]
  split
  · dsimp only
    split_ifs
    · rfl
    · rfl
    · have hwarn : ∀ missing, (survey.withSuffix suffix).warn
          (.incompleteEnum (owner.withSuffix suffix) missing)
          = (survey.warn (.incompleteEnum owner missing)).withSuffix suffix :=
        fun missing => (survey.warn_withSuffix suffix (.incompleteEnum owner missing)).symm
      rw [hwarn]
      rfl
  · rfl

/-! ## Classification -/

theorem classifyInline_withSuffix (survey : Survey) :
    classifyInline (settings.withSuffix suffix) (owner.withSuffix suffix) k
        (survey.withSuffix suffix)
      = ((classifyInline settings owner k survey).map fun (classified, survey) =>
          (classified.revise (.rename (.withSuffix suffix)), survey.withSuffix suffix)).mapError
        (Fault.rename (.withSuffix suffix)) := by
  rw [classifyInline, classifyInline]
  -- The cases are the rules of classification, in the order in which they are tried.
  cases k.isArrayShaped with
  | true =>
    simp only [if_true, mapType_withSuffix hsuffix howner isAscii_valueMember]
    rfl
  | false =>
  cases k.hasNullBranch && k.singleReference?.isSome with
  | true =>
    simp only [Bool.false_eq_true, if_false, if_true, plainOf_withSuffix settings hsuffix howner]
    rfl
  | false =>
  cases k.hasComposition with
  | true =>
    simp only [Bool.false_eq_true, if_false, if_true, stubOf_withSuffix hsuffix howner hascii]
    rfl
  | false =>
  cases k.isObjectShaped with
  | true =>
    simp only [Bool.false_eq_true, if_false, if_true, objectOf_withSuffix hsuffix howner hascii]
    rfl
  | false =>
  simp only [Bool.false_eq_true, if_false]
  cases if k.admitsType .string then k.stringEnum? else none with
  | some values =>
    dsimp only
    rw [enumOf_withSuffix]
    cases enumOf settings owner k values survey <;> rfl
  | none =>
    have hwarn : (if k.enumValues.isEmpty then survey.withSuffix suffix
          else (survey.withSuffix suffix).warn (.nonStringEnum (owner.withSuffix suffix)))
        = (if k.enumValues.isEmpty then survey
          else survey.warn (.nonStringEnum owner)).withSuffix suffix := by
      split_ifs
      · rfl
      · exact (survey.warn_withSuffix suffix (.nonStringEnum owner)).symm
    dsimp only
    rw [hwarn]
    cases k.isType .object || (Schema.inline k).isEmpty with
    | true => rfl
    | false =>
      simp only [Bool.false_eq_true, if_false, plainOf_withSuffix settings hsuffix howner]
      rfl

end

end

/-- **What an ASCII schema turns out to be, what is found in it and what is warned of differ in
the suffix alone.** -/
theorem classify_withSuffix {settings : Settings} {suffix : String} (hsuffix : IsAscii suffix)
    {pending : Pending} (hname : pending.name.IsUnsuffixed) (hascii : pending.schema.IsAscii)
    (registry : Registry) :
    classify (settings.withSuffix suffix) (pending.withSuffix suffix) (registry.withSuffix suffix)
      = ((classify settings pending registry).map fun (classified, survey) =>
          (classified.revise (.rename (.withSuffix suffix)), survey.withSuffix suffix)).mapError
        (Fault.rename (.withSuffix suffix)) := by
  obtain ⟨name, schema⟩ := pending
  cases schema with
  | ref target =>
    have hplain := plainOf_withSuffix settings hsuffix hname (.ref target) none false
      { registry }
    change Except.ok (Classified.plain (plainOf (settings.withSuffix suffix)
      (name.withSuffix suffix) (.ref target) none false
        (Survey.withSuffix suffix { registry })).1, _) = _
    rw [hplain]
    rfl
  | inline k => exact classifyInline_withSuffix hsuffix hname hascii { registry }

end PojoGraph
