import PojoGraph.Proofs.Encoding.Schemas

/-!
# The numbers of written documents

The numbers of a document that is written are its bounds, factors and counts, and those among its
enum values. They are well formed if the document is.

## Main definitions

* `Json.numbers` — the numbers of a value.
* `Json.NumbersWellFormed` — they are well formed.

## Main statements

* `Document.numbersWellFormed_encode` — the numbers of a well-formed document are well formed.
-/

namespace PojoGraph

/-! ## Values -/

namespace Json

mutual

/-- The numbers of the value, in order. -/
def numbers : Json → List Number
  | number value => [value]
  | array items => numbersOfItems items
  | object fields => numbersOfFields fields
  | _ => []

/-- The numbers of a list of values. -/
def numbersOfItems : List Json → List Number
  | [] => []
  | item :: rest => item.numbers ++ numbersOfItems rest

/-- The numbers of the values of fields. -/
def numbersOfFields : List (String × Json) → List Number
  | [] => []
  | (_, value) :: rest => value.numbers ++ numbersOfFields rest

end

theorem mem_numbersOfItems {items : List Json} {n : Number} :
    n ∈ numbersOfItems items ↔ ∃ item ∈ items, n ∈ item.numbers := by
  induction items with
  | nil => simp [numbersOfItems]
  | cons item rest ih => simp [numbersOfItems, ih]

theorem mem_numbersOfFields {fields : List (String × Json)} {n : Number} :
    n ∈ numbersOfFields fields ↔ ∃ field ∈ fields, n ∈ field.2.numbers := by
  induction fields with
  | nil => simp [numbersOfFields]
  | cons field rest ih => simp [numbersOfFields, ih]

/-- The numbers of the value are well formed. -/
def NumbersWellFormed (value : Json) : Prop :=
  ∀ n ∈ value.numbers, n.IsWellFormed

namespace NumbersWellFormed

theorem string (text : String) : (Json.string text).NumbersWellFormed :=
  nofun

theorem bool (value : Bool) : (Json.bool value).NumbersWellFormed :=
  nofun

theorem number {n : Number} (h : n.IsWellFormed) : (Json.number n).NumbersWellFormed := by
  intro m hm
  rw [numbers, List.mem_singleton] at hm
  exact hm ▸ h

theorem array {items : List Json} (h : ∀ item ∈ items, item.NumbersWellFormed) :
    (Json.array items).NumbersWellFormed := by
  intro n hn
  obtain ⟨item, hitem, hn⟩ := mem_numbersOfItems.mp hn
  exact h item hitem n hn

theorem object {fields : List (String × Json)} (h : ∀ field ∈ fields, field.2.NumbersWellFormed) :
    (Json.object fields).NumbersWellFormed := by
  intro n hn
  obtain ⟨field, hfield, hn⟩ := mem_numbersOfFields.mp hn
  exact h field hfield n hn

/-- The numbers of an object are those of the fields that are given. -/
theorem ofGiven {fields : List (Option (String × Json))}
    (h : ∀ field, some field ∈ fields → field.2.NumbersWellFormed) :
    (Json.object (fields.filterMap id)).NumbersWellFormed :=
  object fun field hfield => h field (by simpa using hfield)

/-- A count of 64 bits is a well-formed number. -/
theorem ofNat {count : Nat} (h : count < unsignedBound) :
    (Json.ofNat count).NumbersWellFormed :=
  number ⟨by omega, by omega⟩

/-- The numbers of an optional value are those of what it is written as. -/
theorem of_map {α : Type} {given : Option α} {write : α → Json} {value : Json}
    (h : ∀ a ∈ given, (write a).NumbersWellFormed) (hvalue : given.map write = some value) :
    value.NumbersWellFormed := by
  obtain ⟨a, ha, rfl⟩ := Option.map_eq_some_iff.mp hvalue
  exact h a ha

end NumbersWellFormed

mutual

/-- The numbers of a well-formed value are well formed. -/
theorem IsWellFormed.numbers : ∀ {value : Json}, value.IsWellFormed → value.NumbersWellFormed
  | .null, _ | .bool _, _ | .string _, _ => nofun
  | .number _, h => .number h
  | .array _, h => .array (AllWellFormed.numbers h)
  | .object _, h => .object (ValuesWellFormed.numbers h.2)

theorem AllWellFormed.numbers : ∀ {items : List Json}, AllWellFormed items →
    ∀ item ∈ items, item.NumbersWellFormed
  | [], _ => nofun
  | _ :: _, h =>
    List.forall_mem_cons.mpr ⟨IsWellFormed.numbers h.1, AllWellFormed.numbers h.2⟩

theorem ValuesWellFormed.numbers : ∀ {fields : List (String × Json)}, ValuesWellFormed fields →
    ∀ field ∈ fields, field.2.NumbersWellFormed
  | [], _ => nofun
  | (_, _) :: _, h =>
    List.forall_mem_cons.mpr ⟨IsWellFormed.numbers h.1, ValuesWellFormed.numbers h.2⟩

end

end Json

open Json

/-! ## Schemas -/

theorem ExclusiveBound.numbersWellFormed_encode {bound : ExclusiveBound}
    (h : ∀ number, bound = .value number → number.IsWellFormed) :
    bound.encode.NumbersWellFormed := by
  cases bound with
  | flag allowed => exact .bool allowed
  | value number => exact .number (h number rfl)

theorem DiscriminatorKeyword.numbersWellFormed_encode (given : DiscriminatorKeyword) :
    given.encode.NumbersWellFormed := by
  refine .object (List.forall_mem_cons.mpr ⟨.string _, ?_⟩)
  split
  · exact fun _ hfield => (List.not_mem_nil hfield).elim
  · refine List.forall_mem_singleton.mpr (.object fun field hfield => ?_)
    obtain ⟨_, -, rfl⟩ := List.mem_map.mp hfield
    exact .string _

theorem TypeSet.numbersWellFormed_encode (types : TypeSet) : types.encode.NumbersWellFormed := by
  cases types with
  | single type => exact .string _
  | multiple types =>
    refine .array fun item hitem => ?_
    obtain ⟨_, -, rfl⟩ := List.mem_map.mp hitem
    exact .string _

/-- The numbers of a keyword that holds no schemas are well formed. -/
theorem Facets.IsWellFormed.numbers {facets : Facets} (hfacets : facets.IsWellFormed)
    {keyword : Keyword} {value : Json} (h : facets.encode? keyword = some value) :
    value.NumbersWellFormed := by
  have hnumber : ∀ {given : Option Number}, (∀ number ∈ given, number.IsWellFormed) →
      given.map Json.number = some value → value.NumbersWellFormed :=
    fun hgiven => .of_map fun number hnumber => .number (hgiven number hnumber)
  have hcount : ∀ {given : Option Nat}, (∀ count ∈ given, count < unsignedBound) →
      given.map Json.ofNat = some value → value.NumbersWellFormed :=
    fun hgiven => .of_map fun count hcount => .ofNat (hgiven count hcount)
  have hexclusive : ∀ {given : Option ExclusiveBound},
      (∀ number, given = some (.value number) → number.IsWellFormed) →
        given.map ExclusiveBound.encode = some value → value.NumbersWellFormed :=
    fun hgiven => .of_map fun bound hbound =>
      bound.numbersWellFormed_encode fun number heq => hgiven number (heq ▸ hbound)
  cases keyword with
  | properties | additional | items | allOf | oneOf | anyOf => cases h
  | format | title | description | pattern => exact .of_map (fun _ _ => .string _) h
  | nullable => exact .of_map (fun _ _ => .bool _) h
  | types => exact .of_map (fun types _ => types.numbersWellFormed_encode) h
  | discriminator => exact .of_map (fun given _ => given.numbersWellFormed_encode) h
  | required =>
    obtain ⟨-, hvalue⟩ := Option.ite_none_left_eq_some.mp h
    cases hvalue
    refine .array fun item hitem => ?_
    obtain ⟨_, -, rfl⟩ := List.mem_map.mp hitem
    exact .string _
  | enumValues =>
    obtain ⟨-, hvalue⟩ := Option.ite_none_left_eq_some.mp h
    cases hvalue
    exact .array fun item hitem => (hfacets.enumValues item hitem).numbers
  | minimum => exact hnumber hfacets.minimum h
  | maximum => exact hnumber hfacets.maximum h
  | multipleOf => exact hnumber hfacets.multipleOf h
  | exclusiveMinimum => exact hexclusive hfacets.exclusiveMinimum h
  | exclusiveMaximum => exact hexclusive hfacets.exclusiveMaximum h
  | minProperties => exact hcount hfacets.minProperties h
  | maxProperties => exact hcount hfacets.maxProperties h
  | minLength => exact hcount hfacets.minLength h
  | maxLength => exact hcount hfacets.maxLength h
  | minItems => exact hcount hfacets.minItems h
  | maxItems => exact hcount hfacets.maxItems h

/-- The numbers of a keyword are well formed, if those of the schemas in it are. -/
theorem Keywords.IsWellFormed.numbers {k : Keywords Schema} (hk : k.IsWellFormed)
    (hchildren : ∀ child ∈ k.children, child.encode.NumbersWellFormed) {keyword : Keyword}
    {value : Json} (h : k.written.encodeAt? keyword = some value) : value.NumbersWellFormed := by
  have hschemas : ∀ {schemas : List Schema}, (∀ child ∈ schemas, child ∈ k.children) →
      Json.ofItems? (schemas.map Schema.encode) = some value → value.NumbersWellFormed := by
    intro schemas hmem hvalue
    obtain ⟨-, hvalue⟩ := Option.ite_none_left_eq_some.mp hvalue
    cases hvalue
    exact .array (List.forall_mem_map.mpr fun child hchild => hchildren child (hmem child hchild))
  have hfacets : k.toFacets.encode? keyword = some value → value.NumbersWellFormed :=
    hk.facets.numbers
  simp only [Keywords.children, List.mem_append, Option.mem_toList] at hchildren hschemas
  cases keyword with
  | properties =>
    obtain ⟨-, hvalue⟩ := Option.ite_none_left_eq_some.mp h
    cases hvalue
    exact .object (List.forall_mem_map.mpr fun property hproperty =>
      hchildren _ (by simp [List.mem_map_of_mem hproperty]))
  | allOf => exact hschemas (fun child hchild => by simp [hchild]) h
  | oneOf => exact hschemas (fun child hchild => by simp [hchild]) h
  | anyOf => exact hschemas (fun child hchild => by simp [hchild]) h
  | items => exact .of_map (fun item hitem => hchildren item (by simp_all)) h
  | additional =>
    obtain ⟨written, hwritten, rfl⟩ := Option.map_eq_some_iff.mp h
    obtain ⟨additional, hadditional, rfl⟩ := Option.map_eq_some_iff.mp hwritten
    cases additional with
    | flag allowed => exact .bool allowed
    | schema inner => exact hchildren inner (by simp [hadditional])
  | _ => exact hfacets h

/-- The numbers of a schema that is well formed throughout are well formed. -/
theorem Schema.numbersWellFormed_encode {schema : Schema}
    (h : schema.Everywhere Keywords.IsWellFormed) : schema.encode.NumbersWellFormed := by
  induction schema using Schema.childInduction with
  | ref target => exact .object (List.forall_mem_singleton.mpr (.string _))
  | inline k ih =>
    obtain ⟨hk, hchildren⟩ := Everywhere.inline_iff.mp h
    rw [encode_inline, Keywords.encode_eq]
    refine .object fun field hfield => ?_
    obtain ⟨keyword, -, hkeyword⟩ := List.mem_filterMap.mp hfield
    obtain ⟨value, hvalue, rfl⟩ := Option.map_eq_some_iff.mp hkeyword
    exact hk.numbers (fun child hchild => ih child hchild (hchildren child hchild)) hvalue

/-! ## Documents -/

/-- **The numbers of a well-formed document are well formed.** -/
theorem Document.numbersWellFormed_encode {document : Document} (h : document.IsWellFormed) :
    document.encode.NumbersWellFormed := by
  obtain ⟨openapi, ⟨title, description, version⟩, components⟩ := document
  refine .ofGiven fun field hfield => ?_
  rcases List.mem_cons.mp hfield with heq | hfield
  · cases heq
    exact .string openapi
  rcases List.mem_cons.mp hfield with heq | hfield
  · cases heq
    refine .ofGiven fun field hfield => ?_
    simp only [List.mem_cons, Option.some.injEq, List.not_mem_nil, or_false] at hfield
    rcases hfield with rfl | hgiven | rfl
    · exact .string title
    · obtain ⟨text, -, rfl⟩ := Option.map_eq_some_iff.mp hgiven.symm
      exact .string text
    · exact .string version
  · obtain ⟨components, rfl, rfl⟩ :=
      Option.map_eq_some_iff.mp (List.mem_singleton.mp hfield).symm
    refine .ofGiven fun field hfield => ?_
    obtain ⟨schemas, hschemas, rfl⟩ :=
      Option.map_eq_some_iff.mp (List.mem_singleton.mp hfield).symm
    obtain ⟨-, hschemas⟩ := Option.ite_none_left_eq_some.mp hschemas
    cases hschemas
    exact .object (List.forall_mem_map.mpr fun entry hentry =>
      Schema.numbersWellFormed_encode (h.schemas entry hentry))

end PojoGraph
