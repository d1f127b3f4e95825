import PojoGraph.Proofs.Classification.Plain

/-!
# Named arrays

Classification takes a schema for an array before any other rule is tried, and then maps the same
schema to the type of the array's value. Mapping has rules of its own, and tries lists only after
references, objects, enums and scalars. So an array that is also composed, declares properties or
enumerates strings has a value that is no list, and whose size is not limited. Scalars do not come
in between: a schema with a scalar type is not taken for an array.

## Main definitions

* `ArrayValue` — what the value of a named array is.
* `DataType.IsListOf` — a list whose size is as the keywords say.

## Main statements

* `Keywords.form_eq_list_iff` — when the two rules agree.
* `arrayValue_of_classify` — the value of each named array.
* `array_wraps_list_iff` — when it is a list.
-/

namespace PojoGraph

/-! ## Forms of arrays -/

namespace Keywords

variable {k : Keywords Schema}

/-- What is no inline object is not composed, hence no reference either. -/
theorem singleReference?_of_isInlineObject (h : k.isInlineObject = false) :
    k.singleReference? = none := by
  simp only [isInlineObject, hasComposition, Bool.or_eq_false_iff, Bool.not_eq_false',
    List.isEmpty_iff] at h
  obtain ⟨hproperties, ⟨hall, hone⟩, hany⟩ := h
  simp [singleReference?, composedBranches, hproperties, hall, hone, hany]

theorem isInlineObject_of_singleReference? {target : String}
    (h : k.singleReference? = some target) : k.isInlineObject = true := by
  by_contra hobject
  rw [singleReference?_of_isInlineObject (by simpa using hobject)] at h
  cases h

/-- An array has no scalar type. -/
theorem scalar?_of_isArrayShaped (h : k.isArrayShaped = true) : k.scalar? = none := by
  rw [isArrayShaped, Bool.or_eq_true, Bool.and_eq_true] at h
  rcases h with htype | ⟨htypes, -⟩
  · have harray : k.singleType? = some .array := by simpa [Facets.isType] using htype
    simp only [Facets.scalar?, harray]
  · have hnone : k.singleType? = none := by
      simp [Facets.singleType?, Option.isNone_iff_eq_none.mp htypes]
    simp only [Facets.scalar?, hnone]

/-- Only an array without a type may be an enum of strings. -/
theorem enumNames?_of_isArrayShaped (h : k.isArrayShaped = true) :
    k.enumNames? = if k.types = none then k.stringEnum? else none := by
  by_cases htypes : k.types = none
  · have hadmits : k.admitsType .string = true := by
      simp [Facets.admitsType, Facets.singleType?, htypes]
    rw [enumNames?, if_pos hadmits, if_pos htypes]
  · have harray : k.singleType? = some .array := by
      simpa [isArrayShaped, Facets.isType, htypes] using h
    have hadmits : k.admitsType .string = false := by
      simp [Facets.admitsType, harray]
    simp [enumNames?, hadmits, htypes]

/-- The form of an array: the rules that mapping tries before lists and that may fit. -/
theorem form_of_isArrayShaped (h : k.isArrayShaped = true) :
    k.form = match k.singleReference? with
      | some target => .reference target
      | none =>
        if k.isInlineObject then .object
        else match k.enumNames? with
          | some values => .enum values
          | none => .list := by
  have hnames : (if k.admitsType .string then k.stringEnum? else none) = k.enumNames? := rfl
  have hscalar := scalar?_of_isArrayShaped h
  cases hreference : k.singleReference? with
  | some target => simp [form, hreference]
  | none =>
    cases hobject : k.isInlineObject with
    | true => simp [form, hreference, hobject]
    | false =>
      cases hvalues : k.enumNames? <;>
        simp [form, hreference, hobject, hnames, hvalues, hscalar, h]

/-- **Mapping takes for lists** the arrays that declare no properties, are not composed and
enumerate no strings. -/
theorem form_eq_list_iff : k.form = .list
    ↔ k.isArrayShaped = true ∧ k.isInlineObject = false
      ∧ (k.types = none → k.stringEnum? = none) := by
  by_cases hshape : k.isArrayShaped = true
  · rw [form_of_isArrayShaped hshape, enumNames?_of_isArrayShaped hshape]
    cases hobject : k.isInlineObject with
    | true => cases k.singleReference? <;> simp
    | false =>
      rw [singleReference?_of_isInlineObject hobject]
      by_cases htypes : k.types = none
      · cases k.stringEnum? <;> simp [htypes, hshape]
      · simp [htypes, hshape]
  · exact ⟨fun hform => absurd (isArrayShaped_of_form hform) hshape,
      fun harray => absurd harray.1 hshape⟩

end Keywords

/-! ## Values of arrays -/

/-- What the value of a named array is, and what is found in it. -/
inductive ArrayValue (settings : Settings) (k : Keywords Schema) : DataType → List Pending → Prop
  where
  /-- A list, as long as the keywords say. -/
  | list {item : DataType} {found : List Pending} (hform : k.form = .list) :
    ArrayValue settings k (.list item { constraints := k.itemConstraints }) found
  /-- The schema that the array is composed of, where it is composed of a single reference. -/
  | reference {target : String} (hreference : k.singleReference? = some target) :
    ArrayValue settings k (.object (settings.pojoName (refName target))) []
  /-- The array itself, found again under another name, where it is an object to mapping. -/
  | itself {name : PojoName} (hobject : k.isInlineObject = true)
      (hreference : k.singleReference? = none) :
    ArrayValue settings k (.object name) [⟨name, .inline k⟩]
  /-- The strings that the array enumerates, where it has no type. -/
  | enum {values : List String} (hobject : k.isInlineObject = false) (htypes : k.types = none)
      (hvalues : k.stringEnum? = some values) :
    ArrayValue settings k (.leaf (.enum (EnumValue.ofValues values)) {}) []

/-- The type is a list, and the number of its items is limited as the keywords say. -/
def DataType.IsListOf (type : DataType) (k : Keywords Schema) : Prop :=
  type.item?.isSome = true ∧ type.traits.constraints.size = Extent.of? k.minItems k.maxItems

section

variable {settings : Settings} {owner : PojoName} {k : Keywords Schema}

/-- **A value is a list if and only if mapping takes the array for one.** -/
theorem ArrayValue.isListOf_iff {type : DataType} {found : List Pending}
    (h : ArrayValue settings k type found) : type.IsListOf k ↔ k.form = .list := by
  cases h with
  | list hform => simp [DataType.IsListOf, DataType.item?, DataType.traits,
      Facets.itemConstraints, hform]
  | reference hreference =>
    simp [DataType.IsListOf, DataType.object, DataType.item?, Keywords.form_eq_list_iff,
      Keywords.isInlineObject_of_singleReference? hreference]
  | itself hobject hreference =>
    simp [DataType.IsListOf, DataType.object, DataType.item?, Keywords.form_eq_list_iff, hobject]
  | enum hobject htypes hvalues =>
    simp [DataType.IsListOf, DataType.item?, Keywords.form_eq_list_iff, htypes, hvalues]

theorem arrayValue_mapSchema (hshape : k.isArrayShaped = true) (member : String)
    (registry : Registry) :
    ArrayValue settings k (mapSchema settings owner member registry (.inline k)).type
      (mapSchema settings owner member registry (.inline k)).found := by
  have hform := Keywords.form_of_isArrayShaped hshape
  rw [mapSchema_inline]
  cases hreference : k.singleReference? with
  | some target =>
    simp only [hreference] at hform
    rw [hform]
    exact .reference hreference
  | none =>
    simp only [hreference] at hform
    cases hobject : k.isInlineObject with
    | true =>
      simp only [hobject, if_true] at hform
      rw [hform]
      exact .itself hobject hreference
    | false =>
      simp only [hobject, Bool.false_eq_true, if_false] at hform
      cases hvalues : k.enumNames? with
      | some values =>
        simp only [hvalues] at hform
        rw [hform]
        rw [Keywords.enumNames?_of_isArrayShaped hshape, Option.ite_none_right_eq_some] at hvalues
        exact .enum hobject hvalues.1 hvalues.2
      | none =>
        simp only [hvalues] at hform
        rw [hform]
        cases k.items with
        | none => exact .list hform
        | some item => exact .list hform

/-- A schema is classified as an array if and only if it is shaped like one. -/
theorem classify_eq_array_iff {registry : Registry} :
    (∃ name description value survey, classify settings ⟨owner, .inline k⟩ registry
        = .ok (.pojo (.array name description value), survey))
      ↔ k.isArrayShaped = true := by
  constructor
  · rintro ⟨name, description, value, survey, h⟩
    cases classifies_classify h with
    | array hshape => exact hshape
    | enum hsimple hvalues henum =>
      obtain ⟨⟨values, hpojo⟩, -⟩ := eq_enum_of_enumOf henum
      cases hpojo
  · intro hshape
    have harray : classifyInline settings owner k { registry } = _ := if_pos hshape
    exact ⟨_, _, _, _, harray⟩

/-- **The value of each named array**, and what is found in it. -/
theorem arrayValue_of_classify {registry : Registry} {name : PojoName}
    {description : Option String} {value : Member} {survey : Survey}
    (h : classify settings ⟨owner, .inline k⟩ registry
      = .ok (.pojo (.array name description value), survey)) :
    ArrayValue settings k value.type survey.found := by
  have hvalue (hshape : k.isArrayShaped = true) : ArrayValue settings k
      (mapSchema settings owner valueMember registry (.inline k)).type
      (mapSchema settings owner valueMember registry (.inline k)).found :=
    arrayValue_mapSchema hshape valueMember registry
  cases classifies_classify h with
  | array hshape => simpa only [Survey.mapType, List.nil_append] using hvalue hshape
  | enum hsimple hvalues henum =>
    obtain ⟨⟨values, hpojo⟩, -⟩ := eq_enum_of_enumOf henum
    cases hpojo

end

/-- **When a named array wraps a list.** Just the schemas that describe arrays are classified as
named arrays. The value of one is a list, limited by the schema's numbers of items, if and only if
the schema declares no properties, is not composed and, where it has no type, enumerates no strings;
just then mapping takes the schema for a list as well. Otherwise the value is the single reference
that the schema is composed of, the schema itself under a name of its own, or an enum. -/
theorem array_wraps_list_iff (settings : Settings) (pending : Pending) (registry : Registry) :
    ((∃ name description value survey, classify settings pending registry
          = .ok (.pojo (.array name description value), survey))
        ↔ ∃ k, pending.schema = .inline k ∧ k.isArrayShaped = true)
      ∧ ∀ name description value survey, classify settings pending registry
          = .ok (.pojo (.array name description value), survey) →
        ∃ k, pending.schema = .inline k
          ∧ ArrayValue settings k value.type survey.found
          ∧ (value.type.IsListOf k
            ↔ k.isInlineObject = false ∧ (k.types = none → k.stringEnum? = none))
          ∧ (value.type.IsListOf k ↔ k.form = .list) := by
  obtain ⟨owner, schema⟩ := pending
  cases schema with
  | ref target =>
    have hplain : ∀ name description value survey, classify settings ⟨owner, .ref target⟩ registry
        ≠ .ok (.pojo (.array name description value), survey) := by
      intro name description value survey h
      cases h
    refine ⟨⟨?_, ?_⟩, fun name description value survey h => absurd h (hplain _ _ _ _)⟩
    · rintro ⟨name, description, value, survey, h⟩
      exact absurd h (hplain _ _ _ _)
    · rintro ⟨k, hschema, -⟩
      cases hschema
  | inline k =>
    constructor
    · rw [classify_eq_array_iff]
      constructor
      · intro hshape
        exact ⟨k, rfl, hshape⟩
      · rintro ⟨_, ⟨⟩, hshape⟩
        exact hshape
    · intro name description value survey h
      have hvalue := arrayValue_of_classify h
      have hshape := classify_eq_array_iff.mp ⟨name, description, value, survey, h⟩
      refine ⟨k, rfl, hvalue, ?_, hvalue.isListOf_iff⟩
      rw [hvalue.isListOf_iff, Keywords.form_eq_list_iff]
      exact and_iff_right hshape

/-- At least one name, in a list. -/
def nameList : Keywords Schema where
  types := some (.single .array)
  items := some (.inline { types := some (.single .string) })
  minItems := some 1

/-- Names are a list of at least one. -/
theorem array_wraps_list_iff_names :
    ∃ value survey, classify {} ⟨⟨"Names", ""⟩, .inline nameList⟩ {}
        = .ok (.pojo (.array ⟨"Names", ""⟩ none value), survey)
      ∧ value.type.IsListOf nameList := by
  obtain ⟨-, hall⟩ := array_wraps_list_iff {} ⟨⟨"Names", ""⟩, .inline nameList⟩ {}
  obtain ⟨_, ⟨⟩, -, hiff, -⟩ := hall ⟨"Names", ""⟩ none _ _ rfl
  exact ⟨_, _, rfl, hiff.mpr ⟨rfl, nofun⟩⟩

/-- **An array wraps a reference**: names that are composed of people are a named array, but its
value is a reference to people, and no number of items is asked of it. -/
theorem array_wraps_reference :
    ∃ value survey, classify {} ⟨⟨"Names", ""⟩,
          .inline { nameList with allOf := [.ref "#/components/schemas/People"] }⟩ {}
        = .ok (.pojo (.array ⟨"Names", ""⟩ none value), survey)
      ∧ value.type = .object ⟨"People", ""⟩
      ∧ value.type.item? = none :=
  ⟨_, _, rfl, by decide +kernel, by decide +kernel⟩

end PojoGraph
