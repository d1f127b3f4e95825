import Mathlib.Data.List.Forall2
import PojoGraph.Mapping
import PojoGraph.Proofs.Classification.Sites

/-!
# Two spellings of nullable types

That a value of some type may be null is said in one of two ways: by the type together with
`nullable`, or by a list of the type and null. Every question that mapping and classification ask
about a schema has the same answer in both spellings, also where the schemas inside are respelled.

## Main definitions

* `Facets.Respelled`, `Schema.Respelled` — some nullable types are spelled as lists.
* `Facets.Agree` — the same is said of type and null, and all else is equal.

## Main statements

* `Facets.Respelled.agree` — keywords in the two spellings agree.
* `Schema.Respelled.form` — respelled schemas have one form.
-/

namespace PojoGraph

/-! ## Keywords without schemas -/

namespace Facets

/-- A type that is not null, with `nullable`, may become a list of the type and null. -/
inductive Respelled : Facets → Facets → Prop
  | same (facets : Facets) : Respelled facets facets
  | nullLast {facets : Facets} {type : SchemaType} (htype : type ≠ .null)
      (types : facets.types = some (.single type)) (nullable : facets.nullable = some true) :
      Respelled facets
        { facets with types := some (.multiple [type, .null]), nullable := none }
  | nullFirst {facets : Facets} {type : SchemaType} (htype : type ≠ .null)
      (types : facets.types = some (.single type)) (nullable : facets.nullable = some true) :
      Respelled facets
        { facets with types := some (.multiple [.null, type]), nullable := none }

/-- The facets without what they say about type and null. -/
def untyped (facets : Facets) : Facets :=
  { facets with types := none, nullable := none }

/-- The same is said of type and null, and all else is equal. -/
structure Agree (facets facets' : Facets) : Prop where
  untyped : facets.untyped = facets'.untyped
  singleType? : facets.singleType? = facets'.singleType?
  isNone_types : facets.types.isNone = facets'.types.isNone
  admitsNull : (facets.nullable.getD false || facets.listsNull)
    = (facets'.nullable.getD false || facets'.listsNull)
  isNullType : (Schema.inline { toFacets := facets }).isNullType
    = (Schema.inline { toFacets := facets' }).isNullType

/-- **The two spellings agree.** -/
theorem Respelled.agree {facets facets' : Facets} (h : facets.Respelled facets') :
    facets.Agree facets' := by
  cases h with
  | same => exact ⟨rfl, rfl, rfl, rfl, rfl⟩
  | @nullLast type htype types nullable =>
    refine ⟨rfl, ?_, ?_, ?_, ?_⟩ <;>
      cases type <;> simp_all [Facets.singleType?, Facets.listsNull, Schema.isNullType]
  | @nullFirst type htype types nullable =>
    refine ⟨rfl, ?_, ?_, ?_, ?_⟩ <;>
      cases type <;> simp_all [Facets.singleType?, Facets.listsNull, Schema.isNullType]

namespace Agree

variable {facets facets' : Facets} (h : facets.Agree facets')

include h

/-- What does not depend on type and null is equal. -/
theorem congr {β : Type} (f : Facets → β) (hf : ∀ facets : Facets, f facets.untyped = f facets) :
    f facets = f facets' := by
  rw [← hf facets, h.untyped, hf]

theorem isType (type : SchemaType) : facets.isType type = facets'.isType type := by
  rw [Facets.isType, Facets.isType, h.singleType?]

theorem admitsType (type : SchemaType) : facets.admitsType type = facets'.admitsType type := by
  rw [Facets.admitsType, Facets.admitsType, h.singleType?]

theorem isUnconstrained : facets.isUnconstrained = facets'.isUnconstrained := by
  have hsplit : ∀ facets : Facets,
      facets.isUnconstrained = (facets.types.isNone && facets.untyped.isUnconstrained) := by
    intro facets
    simp only [Facets.isUnconstrained, Facets.untyped, Option.isNone_none, Bool.true_and,
      Bool.and_assoc]
  rw [hsplit facets, hsplit facets', h.untyped, h.isNone_types]

theorem scalar? : facets.scalar? = facets'.scalar? := by
  have hformat := h.congr Facets.format fun _ => rfl
  have hstring := fun format => h.congr (Facets.stringConstraints · format) fun _ => rfl
  have hnumeric := fun integral => h.congr (Facets.numericConstraints · integral) fun _ => rfl
  simp only [Facets.scalar?, h.singleType?, hformat, hstring, hnumeric]

end Agree

end Facets

/-! ## Schemas -/

/-- A value for further properties, and the same in another spelling. -/
inductive Additional.Rel {σ : Type} (r : σ → σ → Prop) : Additional σ → Additional σ → Prop
  | flag (allowed : Bool) : Rel r (.flag allowed) (.flag allowed)
  | schema {value value' : σ} (h : r value value') : Rel r (.schema value) (.schema value')

/-- At any number of places of a schema, a nullable type is spelled as a list. -/
inductive Schema.Respelled : Schema → Schema → Prop
  | ref (target : String) : Respelled (.ref target) (.ref target)
  | inline {k k' : Keywords Schema} (facets : k.toFacets.Respelled k'.toFacets)
      (keys : k.properties.map (·.1) = k'.properties.map (·.1))
      (properties : List.Forall₂ Respelled (k.properties.map (·.2)) (k'.properties.map (·.2)))
      (additional : Option.Rel (Additional.Rel Respelled) k.additional k'.additional)
      (items : Option.Rel Respelled k.items k'.items)
      (allOf : List.Forall₂ Respelled k.allOf k'.allOf)
      (oneOf : List.Forall₂ Respelled k.oneOf k'.oneOf)
      (anyOf : List.Forall₂ Respelled k.anyOf k'.anyOf) :
      Respelled (.inline k) (.inline k')

/-- A property, and the same with its schema in another spelling. -/
structure Schema.RespelledEntry (entry entry' : String × Schema) : Prop where
  key : entry.1 = entry'.1
  schema : entry.2.Respelled entry'.2

/-- Lists that agree in keys and are respelled in schemas. -/
theorem Schema.forall₂_respelledEntry {entries entries' : List (String × Schema)}
    (hkeys : entries.map (·.1) = entries'.map (·.1))
    (hschemas : List.Forall₂ Schema.Respelled (entries.map (·.2)) (entries'.map (·.2))) :
    List.Forall₂ Schema.RespelledEntry entries entries' := by
  induction entries generalizing entries' with
  | nil =>
    cases entries' with
    | nil => exact .nil
    | cons entry' rest' => simp at hkeys
  | cons entry rest ih =>
    cases entries' with
    | nil => simp at hkeys
    | cons entry' rest' =>
      simp only [List.map_cons, List.cons.injEq, List.forall₂_cons] at hkeys hschemas
      exact .cons ⟨hkeys.1, hschemas.1⟩ (ih hkeys.2 hschemas.2)

/-- Related lists have equal images under a function that cannot tell their elements apart. -/
theorem map_eq_map_of_forall₂ {α α' β : Type} {r : α → α' → Prop} {f : α → β} {f' : α' → β}
    {as : List α} {as' : List α'} (h : List.Forall₂ r as as')
    (hf : ∀ a ∈ as, ∀ a', r a a' → f a = f' a') : as.map f = as'.map f' := by
  induction h with
  | nil => rfl
  | cons hhead htail ih =>
    rw [List.map_cons, List.map_cons, hf _ List.mem_cons_self _ hhead,
      ih fun a ha => hf a (List.mem_cons_of_mem _ ha)]

theorem isEmpty_eq_of_forall₂ {α α' : Type} {r : α → α' → Prop} {as : List α} {as' : List α'}
    (h : List.Forall₂ r as as') : as.isEmpty = as'.isEmpty := by
  cases h <;> rfl

namespace Schema.Respelled

variable {schema schema' : Schema}

/-- A schema is a respelling of itself. -/
theorem refl (schema : Schema) : schema.Respelled schema := by
  induction schema using Schema.childInduction with
  | ref target => exact .ref target
  | inline k ih =>
    have hlist : ∀ schemas : List Schema, schemas ⊆ k.children →
        List.Forall₂ Schema.Respelled schemas schemas :=
      fun schemas hsub => List.forall₂_same.mpr fun schema hschema => ih schema (hsub hschema)
    refine .inline (.same _) rfl (hlist _ ?_) ?_ ?_ (hlist _ ?_) (hlist _ ?_) (hlist _ ?_)
    · simp [Keywords.children]
    · cases hadditional : k.additional with
      | none => exact .none
      | some additional =>
        cases additional with
        | flag allowed => exact .some (.flag allowed)
        | schema value =>
          exact .some (.schema (ih value (Keywords.mem_children_of_additional hadditional)))
    · cases hitems : k.items with
      | none => exact .none
      | some item => exact .some (ih item (Keywords.mem_children_of_items hitems))
    all_goals
      intro schema hschema
      simp [Keywords.children, hschema]

/-! ### Single schemas -/

theorem isInline (h : schema.Respelled schema') : schema.isInline = schema'.isInline := by
  cases h <;> rfl

theorem isNullType (h : schema.Respelled schema') : schema.isNullType = schema'.isNullType := by
  cases h with
  | ref target => rfl
  | inline facets => exact facets.agree.isNullType

section

variable {schemas schemas' : List Schema} (h : List.Forall₂ Schema.Respelled schemas schemas')

include h

/-- Branches that are not null stay so. -/
theorem filter_isNullType : List.Forall₂ Schema.Respelled (schemas.filter (!·.isNullType))
    (schemas'.filter (!·.isNullType)) := by
  refine List.rel_filter (fun schema schema' hschema => ?_) h
  simp only [hschema.isNullType]

theorem any_isNullType : schemas.any Schema.isNullType = schemas'.any Schema.isNullType := by
  induction h with
  | nil => rfl
  | cons hfirst _ ih => rw [List.any_cons, List.any_cons, hfirst.isNullType, ih]

theorem countP_isInline : schemas.countP Schema.isInline = schemas'.countP Schema.isInline := by
  induction h with
  | nil => rfl
  | cons hfirst _ ih => rw [List.countP_cons, List.countP_cons, hfirst.isInline, ih]

end

/-! ### Keywords -/

section

variable {k k' : Keywords Schema} (h : (Schema.inline k).Respelled (.inline k'))

include h

theorem agree : k.toFacets.Agree k'.toFacets := by
  cases h with
  | inline facets => exact facets.agree

theorem properties : List.Forall₂ RespelledEntry k.properties k'.properties := by
  cases h with
  | inline _ keys properties => exact forall₂_respelledEntry keys properties

theorem allOf : List.Forall₂ Schema.Respelled k.allOf k'.allOf := by
  cases h with
  | inline _ _ _ _ _ allOf => exact allOf

theorem oneOf : List.Forall₂ Schema.Respelled k.oneOf k'.oneOf := by
  cases h with
  | inline _ _ _ _ _ _ oneOf => exact oneOf

theorem anyOf : List.Forall₂ Schema.Respelled k.anyOf k'.anyOf := by
  cases h with
  | inline _ _ _ _ _ _ _ anyOf => exact anyOf

/-- Both or none have items. -/
theorem items : (k.items = none ∧ k'.items = none)
    ∨ ∃ item item', k.items = some item ∧ k'.items = some item' ∧ item.Respelled item' := by
  cases h with
  | inline _ _ _ _ items =>
    generalize k.items = item at items ⊢
    generalize k'.items = item' at items ⊢
    cases items with
    | none => exact .inl ⟨rfl, rfl⟩
    | some hitem => exact .inr ⟨_, _, rfl, rfl, hitem⟩

/-- Both say the same of further properties, up to the spelling of a schema. -/
theorem additional : (k.additional = none ∧ k'.additional = none)
    ∨ (∃ allowed, k.additional = some (.flag allowed) ∧ k'.additional = some (.flag allowed))
    ∨ ∃ value value', k.additional = some (.schema value)
      ∧ k'.additional = some (.schema value') ∧ value.Respelled value' := by
  cases h with
  | inline _ _ _ additional =>
    generalize k.additional = value at additional ⊢
    generalize k'.additional = value' at additional ⊢
    cases additional with
    | none => exact .inl ⟨rfl, rfl⟩
    | some hvalue =>
      cases hvalue with
      | flag allowed => exact .inr (.inl ⟨allowed, rfl, rfl⟩)
      | schema hvalue => exact .inr (.inr ⟨_, _, rfl, rfl, hvalue⟩)

theorem keys : k.properties.map (·.1) = k'.properties.map (·.1) :=
  map_eq_map_of_forall₂ h.properties fun _ _ _ hentry => hentry.key

theorem isEmpty_properties : k.properties.isEmpty = k'.properties.isEmpty :=
  isEmpty_eq_of_forall₂ h.properties

/-- The schemas directly inside are respelled. -/
theorem children : List.Forall₂ Schema.Respelled k.children k'.children := by
  have hproperties : List.Forall₂ Schema.Respelled (k.properties.map (·.2))
      (k'.properties.map (·.2)) :=
    List.rel_map (fun _ _ hentry => hentry.schema) h.properties
  have hitems : List.Forall₂ Schema.Respelled k.items.toList k'.items.toList := by
    obtain ⟨hk, hk'⟩ | ⟨item, item', hk, hk', hitem⟩ := h.items
    · rw [hk, hk']
      exact .nil
    · rw [hk, hk']
      exact .cons hitem .nil
  have hothers := List.rel_append (List.rel_append (List.rel_append
    (List.rel_append hproperties hitems) h.allOf) h.oneOf) h.anyOf
  rw [Keywords.children, Keywords.children]
  obtain ⟨hk, hk'⟩ | ⟨allowed, hk, hk'⟩ | ⟨value, value', hk, hk', hvalue⟩ := h.additional <;>
    rw [hk, hk']
  · exact List.rel_append hothers .nil
  · exact List.rel_append hothers .nil
  · exact List.rel_append hothers (.cons hvalue .nil)

end

/-! ### Whole schemas -/

/-- Whether any value is admitted does not depend on the spelling. -/
theorem isEmpty (h : schema.Respelled schema') : schema.isEmpty = schema'.isEmpty := by
  have hinline := h
  cases h with
  | ref target => rfl
  | @inline k k' facets =>
    have hadditional : k.additional.isNone = k'.additional.isNone := by
      obtain ⟨hk, hk'⟩ | ⟨_, hk, hk'⟩ | ⟨_, _, hk, hk', -⟩ := hinline.additional <;>
        simp [hk, hk']
    have hitems : k.items.isNone = k'.items.isNone := by
      obtain ⟨hk, hk'⟩ | ⟨_, _, hk, hk', -⟩ := hinline.items <;> simp [hk, hk']
    simp only [Schema.isEmpty, facets.agree.isUnconstrained, hinline.isEmpty_properties,
      hadditional, hitems, isEmpty_eq_of_forall₂ hinline.allOf, isEmpty_eq_of_forall₂ hinline.oneOf,
      isEmpty_eq_of_forall₂ hinline.anyOf]

/-- A respelled schema has as many schemas inside. -/
theorem size (h : schema.Respelled schema') : schema.size = schema'.size := by
  induction schema using Schema.childInduction generalizing schema' with
  | ref target =>
    cases h
    rfl
  | inline k ih =>
    have hinline := h
    cases h with
    | inline =>
      have hsum : ∀ schemas : List Schema, sizeOfAll schemas = (schemas.map Schema.size).sum := by
        intro schemas
        induction schemas with
        | nil => rfl
        | cons schema rest ih => rw [sizeOfAll, ih, List.map_cons, List.sum_cons]
      rw [size_inline, size_inline, hsum, hsum,
        map_eq_map_of_forall₂ hinline.children fun child hchild _ hrespelled =>
          ih child hchild hrespelled]

/-- The same references stand in both spellings. -/
theorem references (h : schema.Respelled schema') : schema.references = schema'.references := by
  induction schema using Schema.childInduction generalizing schema' with
  | ref target =>
    cases h
    rfl
  | inline k ih =>
    have hinline := h
    cases h with
    | @inline _ k' facets =>
      have htargets : k.mappingTargets = k'.mappingTargets :=
        facets.agree.congr (fun facets => ({ facets with } : Keywords Schema).mappingTargets)
          fun _ => rfl
      rw [references_inline, references_inline, htargets, List.flatMap_def, List.flatMap_def,
        map_eq_map_of_forall₂ hinline.children fun child hchild _ hrespelled =>
          ih child hchild hrespelled]

section

variable {k k' : Keywords Schema} (h : (Schema.inline k).Respelled (.inline k'))

include h

theorem hasNullBranch : k.hasNullBranch = k'.hasNullBranch :=
  any_isNullType (List.rel_append h.oneOf h.anyOf)

/-- Null is admitted in both spellings or in none. -/
theorem isNullable : k.isNullable = k'.isNullable := by
  have henum := h.agree.congr (fun facets => facets.enumValues.any Json.isNull) fun _ => rfl
  rw [Keywords.isNullable, Keywords.isNullable, h.agree.admitsNull, henum, h.hasNullBranch]

theorem hasComposition : k.hasComposition = k'.hasComposition := by
  rw [Keywords.hasComposition, Keywords.hasComposition, isEmpty_eq_of_forall₂ h.allOf,
    isEmpty_eq_of_forall₂ h.oneOf, isEmpty_eq_of_forall₂ h.anyOf]

theorem composedBranches :
    List.Forall₂ Schema.Respelled k.composedBranches k'.composedBranches :=
  filter_isNullType (List.rel_append (List.rel_append h.allOf h.oneOf) h.anyOf)

theorem singleReference? : k.singleReference? = k'.singleReference? := by
  have hbranches := h.composedBranches
  rw [Keywords.singleReference?, Keywords.singleReference?, h.isEmpty_properties]
  generalize k.composedBranches = branches at hbranches ⊢
  generalize k'.composedBranches = branches' at hbranches ⊢
  cases hbranches with
  | nil => rfl
  | cons hfirst hrest => cases hfirst <;> cases hrest <;> rfl

theorem isArrayShaped : k.isArrayShaped = k'.isArrayShaped := by
  have hitems : k.items.isSome = k'.items.isSome := by
    obtain ⟨hk, hk'⟩ | ⟨_, _, hk, hk', -⟩ := h.items <;> simp [hk, hk']
  rw [Keywords.isArrayShaped, Keywords.isArrayShaped, h.agree.isType, h.agree.isNone_types,
    hitems]

theorem isInlineObject : k.isInlineObject = k'.isInlineObject := by
  rw [Keywords.isInlineObject, Keywords.isInlineObject, h.isEmpty_properties, h.hasComposition]

theorem isSome_mapValue? : k.mapValue?.isSome = k'.mapValue?.isSome := by
  rw [Keywords.mapValue?, Keywords.mapValue?, h.agree.admitsType, h.isEmpty_properties]
  obtain ⟨hk, hk'⟩ | ⟨_, hk, hk'⟩ | ⟨_, _, hk, hk', hvalue⟩ := h.additional <;> rw [hk, hk']
  dsimp only
  rw [hvalue.isEmpty]
  split <;> rfl

theorem restrictsAdditional : k.restrictsAdditional = k'.restrictsAdditional := by
  rw [Keywords.restrictsAdditional, Keywords.restrictsAdditional]
  obtain ⟨hk, hk'⟩ | ⟨_, hk, hk'⟩ | ⟨_, _, hk, hk', hvalue⟩ := h.additional <;> rw [hk, hk']
  dsimp only
  rw [hvalue.isEmpty]

theorem required : k.required = k'.required :=
  h.agree.congr Facets.required fun _ => rfl

theorem isObjectShaped : k.isObjectShaped = k'.isObjectShaped := by
  rw [Keywords.isObjectShaped, Keywords.isObjectShaped, h.isEmpty_properties,
    h.agree.admitsType, h.restrictsAdditional, h.required]

theorem requiredAdditional : k.requiredAdditional = k'.requiredAdditional := by
  have hany : ∀ name, k.properties.any (·.1 == name) = k'.properties.any (·.1 == name) := by
    intro name
    have hkeys := congrArg (List.any · (· == name)) h.keys
    simpa only [List.any_map, Function.comp_def] using hkeys
  simp only [Keywords.requiredAdditional, h.required, hany]

/-- The values of an enum of strings, if the schema may be one. -/
theorem enumNames? : k.enumNames? = k'.enumNames? := by
  rw [Keywords.enumNames?, Keywords.enumNames?, h.agree.admitsType,
    h.agree.congr Facets.stringEnum? fun _ => rfl]

/-- **Schemas in the two spellings have one form.** -/
theorem form : k.form = k'.form := by
  have henum := h.enumNames?
  rw [Keywords.enumNames?, Keywords.enumNames?] at henum
  rw [Keywords.form, Keywords.form, h.singleReference?, h.isInlineObject, henum, h.agree.scalar?,
    h.isArrayShaped, h.isSome_mapValue?, h.agree.isType, h.isEmpty]

end

end Schema.Respelled

end PojoGraph
