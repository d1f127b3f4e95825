import PojoGraph.Proofs.Document.WellFormed

/-!
# Schemas read back

A schema that is written as a JSON value is read back as it was, provided it is well formed. Its
keywords are written in their order, absent and empty ones left out, and read in that order: after
some of them, the keywords so far are those of the schema, with the rest absent.

## Main definitions

* `Keywords.only` — the keywords of a schema that a test selects.
* `Keywords.written` — keywords whose inner schemas are written.

## Main statements

* `Json.json?_tree` — a value is found in the tree that holds it.
* `Facets.read?_encode` — a keyword that holds no schemas is read back.
* `Schema.decode?_encode` — a schema is read back.
-/

namespace PojoGraph

/-! ## Values -/

/-- A list all of whose members are read as they are is read as it is. -/
theorem mapM_of_forall {α : Type} {read : α → Option α} {as : List α}
    (h : ∀ a ∈ as, read a = some a) : as.mapM read = some as := by
  induction as with
  | nil => rfl
  | cons a rest ih =>
    obtain ⟨hfirst, hrest⟩ := List.forall_mem_cons.mp h
    rw [List.mapM_cons, hfirst, ih hrest]
    rfl

/-- Reading what is written of each member of a list gives the list back. -/
theorem mapM_map_of_forall {α β : Type} {write : α → β} {read : β → Option α} {as : List α}
    (h : ∀ a ∈ as, read (write a) = some a) : (as.map write).mapM read = some as :=
  List.mapM_map.trans (mapM_of_forall h)

/-- The dictionary of entries with different keys are these entries. -/
theorem Dictionary.ofEntries_of_nodup {α : Type} {entries : List (String × α)}
    (h : (keys entries).Nodup) : ofEntries entries = entries := by
  induction entries using List.reverseRecOn with
  | nil => rfl
  | append_singleton entries last ih =>
    rw [keys, List.map_append, List.nodup_append'] at h
    obtain ⟨hentries, -, hdisjoint⟩ := h
    rw [ofEntries, List.foldl_append, ← ofEntries, ih hentries]
    exact insert_of_not_mem fun hmem => hdisjoint hmem (List.mem_singleton_self _)

namespace Json

mutual

/-- The tree that holds a value is readable throughout. -/
theorem isReadable_tree : ∀ value : Json, value.tree.isReadable = true
  | null | bool _ | number _ | string _ => by simp [tree, Tree.isReadable]
  | array items => by rw [tree, Tree.isReadable]; exact areReadable_treeItems items
  | object fields => by rw [tree, Tree.isReadable]; exact areEntriesReadable_treeFields fields

theorem areReadable_treeItems : ∀ items : List Json, Tree.areReadable (treeItems items) = true
  | [] => rfl
  | item :: rest => by
    simp only [treeItems, Tree.areReadable, isReadable_tree item, areReadable_treeItems rest,
      Bool.and_self]

theorem areEntriesReadable_treeFields :
    ∀ fields : List (String × Json), Tree.areEntriesReadable (treeFields fields) = true
  | [] => rfl
  | (key, value) :: rest => by
    simp only [treeFields, Tree.areEntriesReadable, Tree.isReadable, isReadable_tree value,
      areEntriesReadable_treeFields rest, Bool.and_self]

end

/-- A field whose key comes after those of all others is inserted at the end. -/
theorem insertSorted_of_forall_lt {key : String} {value : Json} {fields : List (String × Json)}
    (h : ∀ field ∈ fields, field.1 < key) :
    insertSorted key value fields = fields ++ [(key, value)] := by
  induction fields with
  | nil => rfl
  | cons first rest ih =>
    obtain ⟨hfirst, hrest⟩ := List.forall_mem_cons.mp h
    rw [insertSorted, if_neg (lt_asymm hfirst), if_neg (ne_of_lt hfirst), ih hrest]
    rfl

/-- Sorted fields are sorted as they are. -/
theorem sortedObject_of_pairwise {fields : List (String × Json)}
    (h : (fields.map (·.1)).Pairwise (· < ·)) : sortedObject fields = object fields := by
  rw [sortedObject]
  congr 1
  induction fields using List.reverseRecOn with
  | nil => rfl
  | append_singleton fields last ih =>
    rw [List.map_append, List.pairwise_append] at h
    obtain ⟨hfields, -, hlast⟩ := h
    rw [List.foldl_append, ih hfields]
    refine insertSorted_of_forall_lt fun field hfield => ?_
    exact hlast field.1 (List.mem_map_of_mem hfield) last.1 (List.mem_singleton_self _)

mutual

/-- **A well-formed value is found in the tree that holds it.** -/
theorem json?_tree : ∀ value : Json, value.IsWellFormed → value.tree.json? = some value
  | null, _ | bool _, _ | string _, _ => by simp [tree, Tree.json?]
  | number n, h => by
    obtain ⟨-, hfinite⟩ := Number.isWellFormed_iff.mp h
    rw [tree, Tree.json?, if_pos hfinite]
  | array items, h => by
    rw [tree, Tree.json?, jsonItems?_treeItems items h]
    rfl
  | object fields, h => by
    rw [tree, Tree.json?, jsonFields?_treeFields fields h.2, Option.map_some,
      sortedObject_of_pairwise h.1]

theorem jsonItems?_treeItems : ∀ items : List Json, AllWellFormed items →
    Tree.jsonItems? (treeItems items) = some items
  | [], _ => rfl
  | item :: rest, h => by
    rw [treeItems, Tree.jsonItems?, json?_tree item h.1, jsonItems?_treeItems rest h.2]
    rfl

theorem jsonFields?_treeFields : ∀ fields : List (String × Json), ValuesWellFormed fields →
    Tree.jsonFields? (treeFields fields) = some fields
  | [], _ => rfl
  | (key, value) :: rest, h => by
    rw [treeFields, Tree.jsonFields?, json?_tree value h.1, jsonFields?_treeFields rest h.2]
    rfl

end

end Json

/-! ## Facets -/

namespace Facets

/-- The facets that a test selects; the others are absent. -/
def only (p : Keyword → Bool) (facets : Facets) : Facets where
  types := if p .types then facets.types else none
  format := if p .format then facets.format else none
  title := if p .title then facets.title else none
  description := if p .description then facets.description else none
  nullable := if p .nullable then facets.nullable else none
  required := if p .required then facets.required else []
  minProperties := if p .minProperties then facets.minProperties else none
  maxProperties := if p .maxProperties then facets.maxProperties else none
  discriminator := if p .discriminator then facets.discriminator else none
  enumValues := if p .enumValues then facets.enumValues else []
  minimum := if p .minimum then facets.minimum else none
  maximum := if p .maximum then facets.maximum else none
  exclusiveMinimum := if p .exclusiveMinimum then facets.exclusiveMinimum else none
  exclusiveMaximum := if p .exclusiveMaximum then facets.exclusiveMaximum else none
  multipleOf := if p .multipleOf then facets.multipleOf else none
  minLength := if p .minLength then facets.minLength else none
  maxLength := if p .maxLength then facets.maxLength else none
  pattern := if p .pattern then facets.pattern else none
  minItems := if p .minItems then facets.minItems else none
  maxItems := if p .maxItems then facets.maxItems else none

variable {facets : Facets} {p : Keyword → Bool} {keyword : Keyword} {value : Json}

theorem readType?_encode (type : SchemaType) : readType? (.text type.keyword) = some type := by
  cases type <;> rfl

/-- The items of a list are read back where each of them is. -/
theorem listOf?_tree {α : Type} {read : Tree → Option α} {write : α → Json} {as : List α}
    (h : ∀ a ∈ as, read (write a).tree = some a) :
    (Json.array (as.map write)).tree.listOf? read = some as := by
  rw [Json.tree, Json.treeItems_eq, List.map_map, Tree.listOf?]
  exact mapM_map_of_forall h

theorem readTypes?_encode (types : TypeSet) : readTypes? types.encode.tree = some types := by
  cases types with
  | single type => rw [readTypes?, TypeSet.encode, Json.tree, readType?_encode]; rfl
  | multiple types =>
    have hread : (TypeSet.multiple types).encode.tree.listOf? readType? = some types :=
      listOf?_tree fun type _ => readType?_encode type
    rw [readTypes?, hread]
    rfl

theorem readExclusive?_encode {bound : ExclusiveBound}
    (h : ∀ number, bound = .value number → number.IsWellFormed) :
    readExclusive? bound.encode.tree = some bound := by
  cases bound with
  | flag allowed => rfl
  | value number =>
    obtain ⟨-, hfinite⟩ := Number.isWellFormed_iff.mp (h number rfl)
    rw [readExclusive?, ExclusiveBound.encode, Json.tree, Tree.number?, if_pos hfinite]
    rfl

theorem texts?_tree {mapping : Dictionary String} (h : (Dictionary.keys mapping).Nodup) :
    (Json.object (mapping.map fun entry => (entry.1, .string entry.2))).tree.texts?
      = some mapping := by
  rw [Json.tree, Json.treeFields_eq, List.map_map, Tree.texts?]
  refine (congrArg (Option.map Dictionary.ofEntries) (mapM_map_of_forall ?_)).trans ?_
  · exact fun _ _ => rfl
  · rw [Option.map_some, Dictionary.ofEntries_of_nodup h]

theorem readDiscriminator?_encode {given : DiscriminatorKeyword}
    (h : (Dictionary.keys given.mapping).Nodup) :
    readDiscriminator? given.encode.tree = some given := by
  obtain ⟨property, mapping⟩ := given
  cases hmapping : mapping.isEmpty with
  | true =>
    obtain rfl := List.isEmpty_iff.mp hmapping
    rfl
  | false =>
    have hread : (Json.object (mapping.map fun entry => (entry.1, .string entry.2))).tree.texts?
      = some mapping := texts?_tree h
    have hfields : ∀ first second, Tree.fields? ["propertyName", "mapping"]
        (.mapping [(.text "propertyName", first), (.text "mapping", second)])
          = some [some first, some second] := fun _ _ => rfl
    simp only [DiscriminatorKeyword.encode, hmapping, Bool.false_eq_true, if_false]
    rw [readDiscriminator?, Json.tree, Json.treeFields, Json.treeFields, Json.treeFields, hfields]
    simp only [Option.bind_eq_bind, Option.bind_some, hread]
    rfl

/-- A keyword that is left out is absent or empty. -/
theorem only_of_encode?_eq_none (h : facets.encode? keyword = none) :
    facets.only (fun other => other == keyword || p other) = facets.only p := by
  cases keyword with
  | properties | additional | items | allOf | oneOf | anyOf => rfl
  | required =>
    have hempty : facets.required = [] := by simpa [encode?, Json.ofTexts?] using h
    simp only [only, hempty, ite_self]
    rfl
  | enumValues =>
    have hempty : facets.enumValues = [] := by simpa [encode?, Json.ofItems?] using h
    simp only [only, hempty, ite_self]
    rfl
  | _ =>
    have habsent := Option.map_eq_none_iff.mp h
    simp only [only, habsent, ite_self]
    rfl

/-- An optional value is read back if the value that stands for it is. -/
theorem map_optional?_tree {α β : Type} {read : Tree → Option α} {write : α → Json}
    {set : Option α → β} {given : Option α}
    (h : ∀ a ∈ given, (write a).tree.optional? read = some (some a))
    (hvalue : given.map write = some value) :
    (value.tree.optional? read).map set = some (set given) := by
  obtain ⟨a, rfl, rfl⟩ := Option.map_eq_some_iff.mp hvalue
  rw [h a rfl, Option.map_some]

/-- **A keyword that is written is read back.** -/
theorem read?_encode (hfacets : facets.IsWellFormed) (h : facets.encode? keyword = some value) :
    (facets.only p).read? keyword value.tree
      = some (facets.only fun other => other == keyword || p other) := by
  have hnumber : ∀ number : Number, number.IsWellFormed →
      (Json.number number).tree.optional? Tree.number? = some (some number) := by
    intro number hnumber
    obtain ⟨-, hfinite⟩ := Number.isWellFormed_iff.mp hnumber
    rw [Json.tree, Tree.optional?, Tree.number?, if_pos hfinite]
    · rfl
    · nofun
  have hexclusive : ∀ bound : ExclusiveBound,
      (∀ number, bound = .value number → number.IsWellFormed) →
        bound.encode.tree.optional? readExclusive? = some (some bound) := by
    intro bound hbound
    cases bound <;> exact congrArg (Option.map some) (readExclusive?_encode hbound)
  cases keyword with
  | properties | additional | items | allOf | oneOf | anyOf => cases h
  | format | title | description | pattern | nullable => exact map_optional?_tree (fun _ _ => rfl) h
  | minProperties | maxProperties | minLength | maxLength | minItems | maxItems =>
    exact map_optional?_tree (fun _ _ => rfl) h
  | minimum =>
    exact map_optional?_tree (fun bound hbound => hnumber bound (hfacets.minimum bound hbound)) h
  | maximum =>
    exact map_optional?_tree (fun bound hbound => hnumber bound (hfacets.maximum bound hbound)) h
  | multipleOf =>
    exact map_optional?_tree
      (fun factor hfactor => hnumber factor (hfacets.multipleOf factor hfactor)) h
  | exclusiveMinimum =>
    exact map_optional?_tree (fun bound hbound => hexclusive bound fun number heq =>
      hfacets.exclusiveMinimum number (heq ▸ hbound)) h
  | exclusiveMaximum =>
    exact map_optional?_tree (fun bound hbound => hexclusive bound fun number heq =>
      hfacets.exclusiveMaximum number (heq ▸ hbound)) h
  | types =>
    refine map_optional?_tree (fun types _ => ?_) h
    cases types <;> exact congrArg (Option.map some) (readTypes?_encode _)
  | discriminator =>
    refine map_optional?_tree (fun given hgiven => ?_) h
    exact congrArg (Option.map some) (readDiscriminator?_encode (hfacets.mapping given hgiven))
  | required =>
    obtain ⟨-, hvalue⟩ := Option.ite_none_left_eq_some.mp h
    cases hvalue
    rw [read?, listOf?_tree fun _ _ => rfl]
    rfl
  | enumValues =>
    obtain ⟨-, hvalue⟩ := Option.ite_none_left_eq_some.mp h
    cases hvalue
    have hread : (Json.array facets.enumValues).tree.listOf? Tree.json?
        = some facets.enumValues := by
      have hlist := listOf?_tree fun value hvalue =>
        Json.json?_tree value (hfacets.enumValues value hvalue)
      rwa [List.map_id'] at hlist
    rw [read?, hread]
    rfl

end Facets

/-! ## Keywords -/

/-- A keyword is read from the name under which it is written. -/
theorem Keyword.exists_index? (keyword : Keyword) :
    ∃ index, (FieldKey.name keyword.spelling).index? (all.map spelling) = some index
      ∧ all.getD index .types = keyword := by
  cases keyword <;> exact ⟨_, rfl, rfl⟩

theorem Keyword.spelling_ne_refField (keyword : Keyword) :
    keyword.spelling ≠ Schema.refField := by
  cases keyword <;> decide

namespace Keywords

/-- The keywords that a test selects; the others are absent. -/
def only {σ : Type} (p : Keyword → Bool) (k : Keywords σ) : Keywords σ where
  toFacets := k.toFacets.only p
  properties := if p .properties then k.properties else []
  additional := if p .additional then k.additional else none
  items := if p .items then k.items else none
  allOf := if p .allOf then k.allOf else []
  oneOf := if p .oneOf then k.oneOf else []
  anyOf := if p .anyOf then k.anyOf else []

theorem only_eq_self {σ : Type} {p : Keyword → Bool} (k : Keywords σ) (h : ∀ keyword, p keyword) :
    k.only p = k := by
  simp only [only, Facets.only, h, if_true]

/-- The value of a keyword. -/
def encodeAt? (k : Keywords Json) : Keyword → Option Json
  | .properties => Json.ofFields? k.properties
  | .additional => k.additional.map fun (value : Additional Json) => match value with
    | .flag allowed => .bool allowed
    | .schema schema => schema
  | .items => k.items
  | .allOf => Json.ofItems? k.allOf
  | .oneOf => Json.ofItems? k.oneOf
  | .anyOf => Json.ofItems? k.anyOf
  | keyword => k.toFacets.encode? keyword

/-- The fields of some keywords, those of absent and empty ones left out. -/
def fieldsOf (k : Keywords Json) (keywords : List Keyword) : List (String × Json) :=
  keywords.filterMap fun keyword => (k.encodeAt? keyword).map (keyword.spelling, ·)

theorem encode_eq (k : Keywords Json) : k.encode = .object (k.fieldsOf Keyword.all) :=
  rfl

/-- The keywords with the schemas in them written. -/
def written (k : Keywords Schema) : Keywords Json where
  toFacets := k.toFacets
  properties := k.properties.map fun property => (property.1, property.2.encode)
  additional := k.additional.map fun value => match value with
    | .flag allowed => .flag allowed
    | .schema schema => .schema schema.encode
  items := k.items.map Schema.encode
  allOf := k.allOf.map Schema.encode
  oneOf := k.oneOf.map Schema.encode
  anyOf := k.anyOf.map Schema.encode

end Keywords

/-! ## Schemas -/

namespace Schema

/-- A schema written in place is written as its keywords are. -/
theorem encode_inline (k : Keywords Schema) : (inline k).encode = k.written.encode := by
  obtain ⟨facets, properties, additional, items, allOf, oneOf, anyOf⟩ := k
  rcases items with _ | item <;> rcases additional with _ | _ | schema <;>
    rw [encode, encodeProperties_eq, encodeAll_eq, encodeAll_eq, encodeAll_eq] <;> rfl

theorem exists_mapping_encode (schema : Schema) :
    ∃ entries, schema.encode.tree = .mapping entries := by
  cases schema with
  | ref target => exact ⟨_, rfl⟩
  | inline k =>
    rw [encode_inline, Keywords.encode_eq, Json.tree]
    exact ⟨_, rfl⟩

theorem readItems?_encode {schemas : List Schema}
    (h : ∀ schema ∈ schemas, read? schema.encode.tree = some schema) :
    readItems? (Json.treeItems (schemas.map encode)) = some schemas := by
  induction schemas with
  | nil => rfl
  | cons schema rest ih =>
    obtain ⟨hfirst, hrest⟩ := List.forall_mem_cons.mp h
    rw [List.map_cons, Json.treeItems, readItems?, hfirst, ih hrest]
    rfl

theorem readEach?_encode {properties : List (String × Schema)}
    (h : ∀ property ∈ properties, read? property.2.encode.tree = some property.2) :
    readEach? (Json.treeFields (properties.map fun property => (property.1, property.2.encode)))
      = some properties := by
  induction properties with
  | nil => rfl
  | cons property rest ih =>
    obtain ⟨hfirst, hrest⟩ := List.forall_mem_cons.mp h
    rw [List.map_cons, Json.treeFields, readEach?, hfirst, ih hrest]
    rfl

variable {k : Keywords Schema} {p : Keyword → Bool} {keyword : Keyword} {value : Json}

/-- A keyword that is left out is absent or empty. -/
theorem only_of_encodeAt?_eq_none (h : k.written.encodeAt? keyword = none) :
    k.only (fun other => other == keyword || p other) = k.only p := by
  have hfacets : k.toFacets.encode? keyword = none → _ :=
    Facets.only_of_encode?_eq_none (p := p)
  have hempty : ∀ {schemas : List Schema}, Json.ofItems? (schemas.map encode) = none →
      schemas = [] := by
    intro schemas h
    simpa [Json.ofItems?] using h
  cases keyword with
  | properties =>
    have hempty : k.properties = [] := by
      simpa [Keywords.encodeAt?, Json.ofFields?, Keywords.written] using h
    simp only [Keywords.only, hempty, ite_self]
    rfl
  | allOf | oneOf | anyOf =>
    simp only [Keywords.only, hempty h, ite_self]
    rfl
  | additional =>
    have habsent := Option.map_eq_none_iff.mp (Option.map_eq_none_iff.mp h)
    simp only [Keywords.only, habsent, ite_self]
    rfl
  | items =>
    have habsent := Option.map_eq_none_iff.mp h
    simp only [Keywords.only, habsent, ite_self]
    rfl
  | _ =>
    rw [Keywords.only, hfacets h]
    rfl

/-- **A keyword that is written is read back**, if the schemas in it are. -/
theorem read?_encodeAt? (hk : k.IsWellFormed)
    (hchildren : ∀ child ∈ k.children, read? child.encode.tree = some child)
    (h : k.written.encodeAt? keyword = some value) :
    (k.only p).read? keyword value.tree value.tree.readings
      = some (k.only fun other => other == keyword || p other) := by
  have hfacets : k.toFacets.encode? keyword = some value → _ :=
    Facets.read?_encode (p := p) hk.facets
  have hschemas : ∀ {schemas : List Schema}, (∀ child ∈ schemas, child ∈ k.children) →
      Json.ofItems? (schemas.map encode) = some value →
        value.tree.readings.schemas () = some schemas := by
    intro schemas hmem hvalue
    obtain ⟨-, hvalue⟩ := Option.ite_none_left_eq_some.mp hvalue
    cases hvalue
    rw [Json.tree]
    exact readItems?_encode fun child hchild => hchildren child (hmem child hchild)
  simp only [Keywords.children, List.mem_append, Option.mem_toList] at hchildren hschemas
  cases keyword with
  | properties =>
    obtain ⟨-, hvalue⟩ := Option.ite_none_left_eq_some.mp h
    cases hvalue
    have hread : (Json.object k.written.properties).tree.readings.properties ()
        = some k.properties :=
      readEach?_encode fun property hproperty =>
        hchildren _ (by simp [List.mem_map_of_mem hproperty])
    have hproperties := Dictionary.ofEntries_of_nodup hk.properties
    rw [Keywords.read?, hread, Option.map_some, hproperties]
    rfl
  | allOf =>
    rw [Keywords.read?, hschemas (fun child hchild => by simp [hchild]) h]
    rfl
  | oneOf =>
    rw [Keywords.read?, hschemas (fun child hchild => by simp [hchild]) h]
    rfl
  | anyOf =>
    rw [Keywords.read?, hschemas (fun child hchild => by simp [hchild]) h]
    rfl
  | items =>
    obtain ⟨item, hitem, rfl⟩ := Option.map_eq_some_iff.mp h
    have hread : item.encode.tree.readings.schema () = some item :=
      hchildren item (by simp [hitem])
    obtain ⟨entries, hentries⟩ := item.exists_mapping_encode
    rw [hentries] at hread ⊢
    rw [Keywords.read?, hread]
    · simp only [Keywords.only, hitem]
      rfl
    · simp
  | additional =>
    obtain ⟨written, hwritten, rfl⟩ := Option.map_eq_some_iff.mp h
    obtain ⟨additional, hadditional, rfl⟩ := Option.map_eq_some_iff.mp hwritten
    cases additional with
    | flag allowed =>
      simp only [Keywords.only, hadditional]
      rfl
    | schema inner =>
      have hread : inner.encode.tree.readings.schema () = some inner :=
        hchildren inner (by simp [hadditional])
      obtain ⟨entries, hentries⟩ := inner.exists_mapping_encode
      dsimp only
      rw [hentries] at hread ⊢
      rw [Keywords.read?, hread]
      · simp only [Keywords.only, hadditional]
        rfl
      · simp
      · simp
  | _ =>
    exact congrArg (Option.map fun facets => { k.only p with toFacets := facets }) (hfacets h)

/-- A keyword that has not been given is read. -/
theorem readEntries?_cons {seen : List Keyword} (hkeyword : keyword ∉ seen) (tree : Tree)
    (rest : List (Tree × Tree)) :
    readEntries? k seen ((.text keyword.spelling, tree) :: rest)
      = (k.read? keyword tree tree.readings).bind fun k =>
          readEntries? k (keyword :: seen) rest := by
  obtain ⟨index, hindex, hget⟩ := keyword.exists_index?
  rw [readEntries?, FieldKey.ofTree?]
  simp only [Option.bind_eq_bind, Option.bind_some, hindex, hget, List.contains_eq_mem,
    decide_eq_true_iff, if_neg hkeyword]
  rfl

/-- What is read after some keywords are those keywords of the schema; each is read once. -/
theorem readEntries?_fieldsOf (hk : k.IsWellFormed)
    (hchildren : ∀ child ∈ k.children, read? child.encode.tree = some child)
    {keywords : List Keyword} (hnodup : keywords.Nodup) {seen : List Keyword}
    (hseen : ∀ keyword ∈ keywords, keyword ∉ seen) :
    readEntries? (k.only p) seen (Json.treeFields (k.written.fieldsOf keywords))
      = some (k.only fun other => keywords.contains other || p other) := by
  induction keywords generalizing p seen with
  | nil => rfl
  | cons keyword rest ih =>
    obtain ⟨hkeyword, hrest⟩ := List.nodup_cons.mp hnodup
    obtain ⟨hfirst, hothers⟩ := List.forall_mem_cons.mp hseen
    have hselects : (fun other => rest.contains other || (other == keyword || p other))
        = fun other => (keyword :: rest).contains other || p other := by
      funext other
      rw [List.contains_cons, ← Bool.or_assoc, Bool.or_comm (rest.contains other)]
    rw [← hselects]
    cases hvalue : k.written.encodeAt? keyword with
    | none =>
      rw [Keywords.fieldsOf, List.filterMap_cons_none (by rw [hvalue]; rfl),
        ← only_of_encodeAt?_eq_none hvalue]
      exact ih hrest hothers
    | some value =>
      rw [Keywords.fieldsOf, List.filterMap_cons_some (by rw [hvalue]; rfl), Json.treeFields,
        readEntries?_cons hfirst, read?_encodeAt? hk hchildren hvalue, Option.bind_some]
      refine ih hrest fun other hother => ?_
      rw [List.mem_cons, not_or]
      exact ⟨fun heq => hkeyword (heq ▸ hother), hothers other hother⟩

/-- Without a field `$ref` there is no reference. -/
theorem refTarget?_treeFields {fields : List (String × Json)}
    (h : ∀ field ∈ fields, field.1 ≠ refField) : refTarget? (Json.treeFields fields) = none := by
  have hread : (Json.treeFields fields).mapM (fun (entry : Tree × Tree) => do
      some ((← FieldKey.ofTree? entry.1).index? [refField], entry.2))
        = some (fields.map fun field => (none, field.2.tree)) := by
    induction fields with
    | nil => rfl
    | cons field rest ih =>
      obtain ⟨hfirst, hrest⟩ := List.forall_mem_cons.mp h
      have hnone : (FieldKey.name field.1).index? [refField] = none := by
        simp [FieldKey.index?, List.idxOf?, List.findIdx?_cons, hfirst.symm]
      rw [Json.treeFields, List.mapM_cons, ih hrest, FieldKey.ofTree?]
      simp only [Option.bind_eq_bind, Option.bind_some, hnone]
      rfl
  have hfilter : (fields.map fun field => ((none : Option Nat), field.2.tree)).filter
      (·.1.isSome) = [] := by
    rw [List.filter_map, List.filter_eq_nil_iff.mpr (by simp), List.map_nil]
  rw [refTarget?, hread, Option.bind_eq_bind, Option.bind_some, hfilter]

/-- **A well-formed schema is read back from the value as which it is written.** -/
theorem read?_encode {schema : Schema} (h : schema.Everywhere Keywords.IsWellFormed) :
    read? schema.encode.tree = some schema := by
  induction schema using Schema.childInduction with
  | ref target => rfl
  | inline k ih =>
    obtain ⟨hk, hchildren⟩ := Everywhere.inline_iff.mp h
    have href : refTarget? (Json.treeFields (k.written.fieldsOf Keyword.all)) = none := by
      refine refTarget?_treeFields fun field hfield => ?_
      obtain ⟨keyword, -, hkeyword⟩ := List.mem_filterMap.mp hfield
      obtain ⟨value, -, rfl⟩ := Option.map_eq_some_iff.mp hkeyword
      exact keyword.spelling_ne_refField
    have hentries : readEntries? {} [] (Json.treeFields (k.written.fieldsOf Keyword.all))
        = some (k.only fun other => Keyword.all.contains other || false) :=
      readEntries?_fieldsOf (p := fun _ => false) hk
        (fun child hchild => ih child hchild (hchildren child hchild))
        (by decide) (fun _ _ => List.not_mem_nil)
    rw [encode_inline, Keywords.encode_eq, Json.tree, read?, href]
    dsimp only
    rw [hentries, Option.map_some, Keywords.only_eq_self]
    intro keyword
    cases keyword <;> rfl

/-- A well-formed schema is decoded from the tree that holds it. -/
theorem decode?_encode {schema : Schema} (h : schema.Everywhere Keywords.IsWellFormed) :
    decode? schema.encode.tree = some schema := by
  rw [decode?, if_pos (Json.isReadable_tree _), read?_encode h]

end Schema

end PojoGraph
