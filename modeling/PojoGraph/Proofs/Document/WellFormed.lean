import Mathlib.Data.String.Basic
import PojoGraph.Proofs.Document.Properties

/-!
# Well-formed documents

The types of documents are looser than documents are. A document that is read has numbers of 64
bits, each finite; its dictionaries have different keys; and the objects among its enum values have
their fields in order. These are all the conditions that the text of a document imposes.

## Main definitions

* `Number.IsWellFormed`, `Json.IsWellFormed`, `Facets.IsWellFormed`, `Keywords.IsWellFormed`,
  `Document.IsWellFormed` — what well-formed numbers, values, schemas and documents are.
* `Tree.HoldsIntegers` — the integers of a tree have 64 bits.

## Main statements

* `Tree.isRead_holdsIntegers` — the integers of texts have 64 bits.
* `Document.isWellFormed_of_read` — documents that are read are well formed.
-/

namespace PojoGraph

/-! ## Numbers -/

/-- A number of a document: an integer of 64 bits, or a finite double. -/
def Number.IsWellFormed : Number → Prop
  | integer value => -(signedBound : Int) ≤ value ∧ value < unsignedBound
  | double value => value.isFinite = true

/-- The integer has 64 bits, if the number is an integer. -/
def Number.HoldsInteger : Number → Prop
  | integer value => -(signedBound : Int) ≤ value ∧ value < unsignedBound
  | double _ => True

theorem Number.isWellFormed_iff {number : Number} :
    number.IsWellFormed ↔ number.HoldsInteger ∧ number.isFinite = true := by
  cases number <;> simp [IsWellFormed, HoldsInteger, isFinite]

theorem Number.holdsInteger_ofLiteral? {literal : DecimalLiteral} {number : Number}
    (h : ofLiteral? literal = some number) : number.HoldsInteger := by
  rw [ofLiteral?] at h
  have hdouble : ∀ {number}, literal.double?.map double = some number → number.HoldsInteger := by
    intro number h
    obtain ⟨value, -, rfl⟩ := Option.map_eq_some_iff.mp h
    trivial
  cases hnegative : literal.isNegative <;>
    simp only [hnegative, Bool.false_eq_true, if_true, if_false, Bool.and_eq_true,
      decide_eq_true_iff] at h <;> split at h
  · rename_i hshort
    cases h
    simp only [HoldsInteger, signedBound]
    omega
  · exact hdouble h
  · rename_i hshort
    cases h
    simp only [HoldsInteger, unsignedBound]
    omega
  · exact hdouble h

/-! ## Trees -/

namespace Tree

mutual

/-- The integers of the tree have 64 bits. Those among the keys of mappings do not matter. -/
def HoldsIntegers : Tree → Prop
  | number value => value.HoldsInteger
  | sequence items => AllHoldIntegers items
  | mapping entries => ValuesHoldIntegers entries
  | _ => True

/-- The integers of a list of trees have 64 bits. -/
def AllHoldIntegers : List Tree → Prop
  | [] => True
  | item :: rest => item.HoldsIntegers ∧ AllHoldIntegers rest

/-- The integers of the values of entries have 64 bits. -/
def ValuesHoldIntegers : List (Tree × Tree) → Prop
  | [] => True
  | (_, value) :: rest => value.HoldsIntegers ∧ ValuesHoldIntegers rest

end

theorem allHoldIntegers_iff {items : List Tree} :
    AllHoldIntegers items ↔ ∀ item ∈ items, item.HoldsIntegers := by
  induction items with
  | nil => simp [AllHoldIntegers]
  | cons item rest ih => simp [AllHoldIntegers, ih]

theorem valuesHoldIntegers_iff {entries : List (Tree × Tree)} :
    ValuesHoldIntegers entries ↔ ∀ entry ∈ entries, entry.2.HoldsIntegers := by
  induction entries with
  | nil => simp [ValuesHoldIntegers]
  | cons entry rest ih => simp [ValuesHoldIntegers, ih]

theorem isHereditary_holdsIntegers : IsHereditary HoldsIntegers where
  item h hmem := allHoldIntegers_iff.mp h _ hmem
  value h hmem := valuesHoldIntegers_iff.mp h _ hmem

end Tree

/-! ## Readers -/

namespace Json

theorem holdsIntegers_nested {room : Nat} {tree : Tree} (h : tree.HoldsIntegers) :
    (nested room tree).HoldsIntegers := by
  rw [nested]
  split
  · trivial
  · exact h

theorem holdsIntegers_of_readText? {cs rest : List Char} {tree : Tree}
    (h : readText? cs = some (tree, rest)) : tree.HoldsIntegers := by
  obtain ⟨parts, -, h⟩ := Option.bind_eq_some_iff.mp h
  dsimp only at h
  split at h <;> cases h <;> trivial

theorem holdsIntegers_of_readWord? {cs rest : List Char} {tree : Tree}
    (h : readWord? cs = some (tree, rest)) : tree.HoldsIntegers := by
  rw [readWord?.eq_def] at h
  split at h <;> cases h <;> trivial

theorem holdsIntegers_of_readNumber? {cs rest : List Char} {tree : Tree}
    (h : readNumber? cs = some (tree, rest)) : tree.HoldsIntegers := by
  obtain ⟨_, -, h⟩ := Option.bind_eq_some_iff.mp h
  dsimp only at h
  split at h
  · cases h
  · obtain ⟨_, -, h⟩ := Option.bind_eq_some_iff.mp h
    obtain ⟨_, -, h⟩ := Option.bind_eq_some_iff.mp h
    split at h
    · rename_i number hnumber
      cases h
      exact Number.holdsInteger_ofLiteral? hnumber
    · cases h
      trivial

mutual

theorem holdsIntegers_of_readValue? : ∀ (fuel room : Nat) {cs rest : List Char} {tree : Tree},
    readValue? fuel room cs = some (tree, rest) → tree.HoldsIntegers
  | 0, _, _, _, _, h => by simp [readValue?] at h
  | fuel + 1, room, cs, rest, tree, h => by
    rw [readValue?] at h
    split at h
    · split at h
      · cases h
        exact holdsIntegers_nested trivial
      · obtain ⟨⟨entries, _⟩, hentries, heq⟩ := Option.map_eq_some_iff.mp h
        cases heq
        exact holdsIntegers_nested (holdsIntegers_of_readFields? fuel (room - 1) hentries)
    · split at h
      · cases h
        exact holdsIntegers_nested trivial
      · obtain ⟨⟨items, _⟩, hitems, heq⟩ := Option.map_eq_some_iff.mp h
        cases heq
        exact holdsIntegers_nested (holdsIntegers_of_readItems? fuel (room - 1) hitems)
    · exact holdsIntegers_of_readText? h
    · split at h
      · exact holdsIntegers_of_readNumber? h
      · exact holdsIntegers_of_readWord? h
    · cases h

theorem holdsIntegers_of_readItems? : ∀ (fuel room : Nat) {cs rest : List Char}
    {items : List Tree}, readItems? fuel room cs = some (items, rest) → Tree.AllHoldIntegers items
  | 0, _, _, _, _, h => by simp [readItems?] at h
  | fuel + 1, room, cs, rest, items, h => by
    rw [readItems?] at h
    obtain ⟨⟨item, _⟩, hitem, h⟩ := Option.bind_eq_some_iff.mp h
    have hitem := holdsIntegers_of_readValue? fuel room hitem
    dsimp only at h
    split at h
    · obtain ⟨⟨others, _⟩, hothers, h⟩ := Option.bind_eq_some_iff.mp h
      cases h
      exact ⟨hitem, holdsIntegers_of_readItems? fuel room hothers⟩
    · cases h
      exact ⟨hitem, trivial⟩
    · cases h

theorem holdsIntegers_of_readFields? : ∀ (fuel room : Nat) {cs rest : List Char}
    {entries : List (Tree × Tree)}, readFields? fuel room cs = some (entries, rest) →
      Tree.ValuesHoldIntegers entries
  | 0, _, _, _, _, h => by simp [readFields?] at h
  | fuel + 1, room, cs, rest, entries, h => by
    rw [readFields?] at h
    split at h
    · obtain ⟨⟨key, _⟩, -, h⟩ := Option.bind_eq_some_iff.mp h
      dsimp only at h
      split at h
      · obtain ⟨⟨value, _⟩, hvalue, h⟩ := Option.bind_eq_some_iff.mp h
        have hvalue := holdsIntegers_of_readValue? fuel room hvalue
        dsimp only at h
        split at h
        · obtain ⟨⟨others, _⟩, hothers, h⟩ := Option.bind_eq_some_iff.mp h
          cases h
          exact ⟨hvalue, holdsIntegers_of_readFields? fuel room hothers⟩
        · cases h
          exact ⟨hvalue, trivial⟩
        · cases h
      · cases h
    · cases h

end

end Json

namespace Yaml

theorem holdsIntegers_of_integerTree? {value : Int} {tree : Tree}
    (h : integerTree? value = some tree) : tree.HoldsIntegers := by
  rw [integerTree?] at h
  split at h
  · rename_i hshort
    cases h
    simpa [Tree.HoldsIntegers, Number.HoldsInteger] using hshort
  · split at h
    · cases h
      trivial
    · cases h

theorem holdsIntegers_of_integer {cs : List Char} {tree : Tree}
    (h : (integerOf? cs).bind integerTree? = some tree) : tree.HoldsIntegers := by
  obtain ⟨value, -, h⟩ := Option.bind_eq_some_iff.mp h
  exact holdsIntegers_of_integerTree? h

theorem holdsIntegers_plainTree (text : String) : (plainTree text).HoldsIntegers := by
  rw [plainTree]
  split
  · trivial
  · split
    · trivial
    · split
      · rename_i tree htree
        exact holdsIntegers_of_integer htree
      · split <;> trivial

theorem holdsIntegers_scalarTree (tag : Option String) (style : ScalarStyle) (text : String) :
    (scalarTree tag style text).HoldsIntegers := by
  rw [scalarTree.eq_def]
  split
  · split
    · exact holdsIntegers_plainTree text
    · trivial
  · split
    · trivial
    · split
      · cases boolOf? text <;> trivial
      · split
        · cases hinteger : (integerOf? text.toList).bind integerTree? with
          | none => trivial
          | some tree => exact holdsIntegers_of_integer hinteger
        · split
          · cases doubleOf? text.toList <;> trivial
          · split
            · split <;> trivial
            · trivial

namespace Node

mutual

theorem holdsIntegers_tree : ∀ node : Node, node.tree.HoldsIntegers
  | unreadable => by rw [tree]; trivial
  | scalar tag style text => by rw [tree]; exact holdsIntegers_scalarTree tag style text
  | sequence tag items => by
    rw [tree]
    split
    · trivial
    · exact allHoldIntegers_treesOfItems items
  | mapping tag entries => by
    rw [tree]
    split
    · trivial
    · exact valuesHoldIntegers_treesOfEntries entries

theorem allHoldIntegers_treesOfItems : ∀ items, Tree.AllHoldIntegers (treesOfItems items)
  | [] => by rw [treesOfItems]; trivial
  | item :: rest => by
    rw [treesOfItems]
    exact ⟨holdsIntegers_tree item, allHoldIntegers_treesOfItems rest⟩

theorem valuesHoldIntegers_treesOfEntries :
    ∀ entries, Tree.ValuesHoldIntegers (treesOfEntries entries)
  | [] => by rw [treesOfEntries]; trivial
  | (key, value) :: rest => by
    rw [treesOfEntries]
    exact ⟨holdsIntegers_tree value, valuesHoldIntegers_treesOfEntries rest⟩

end

end Node

end Yaml

/-- **The integers of texts have 64 bits.** -/
theorem Tree.isRead_holdsIntegers : IsRead HoldsIntegers where
  json := by
    intro text tree h
    obtain ⟨⟨found, rest⟩, hfound, h⟩ := Option.bind_eq_some_iff.mp h
    dsimp only at h
    split at h
    · cases h
      exact Json.holdsIntegers_of_readValue? _ _ hfound
    · cases h
  yaml := Yaml.Node.holdsIntegers_tree

/-! ## Values -/

namespace Json

mutual

/-- The numbers of the value are well formed, and the fields of its objects have different keys, in
order. -/
def IsWellFormed : Json → Prop
  | number value => value.IsWellFormed
  | array items => AllWellFormed items
  | object fields => (fields.map (·.1)).Pairwise (· < ·) ∧ ValuesWellFormed fields
  | _ => True

/-- All values of a list are well formed. -/
def AllWellFormed : List Json → Prop
  | [] => True
  | item :: rest => item.IsWellFormed ∧ AllWellFormed rest

/-- The values of fields are well formed. -/
def ValuesWellFormed : List (String × Json) → Prop
  | [] => True
  | (_, value) :: rest => value.IsWellFormed ∧ ValuesWellFormed rest

end

theorem allWellFormed_iff {items : List Json} :
    AllWellFormed items ↔ ∀ item ∈ items, item.IsWellFormed := by
  induction items with
  | nil => simp [AllWellFormed]
  | cons item rest ih => simp [AllWellFormed, ih]

theorem valuesWellFormed_iff {fields : List (String × Json)} :
    ValuesWellFormed fields ↔ ∀ field ∈ fields, field.2.IsWellFormed := by
  induction fields with
  | nil => simp [ValuesWellFormed]
  | cons field rest ih => simp [ValuesWellFormed, ih]

variable {key : String} {value : Json} {fields : List (String × Json)}

theorem mem_insertSorted {field : String × Json} (h : field ∈ insertSorted key value fields) :
    field = (key, value) ∨ field ∈ fields := by
  induction fields with
  | nil => exact .inl (List.mem_singleton.mp h)
  | cons first rest ih =>
    rw [insertSorted] at h
    split at h
    · exact List.mem_cons.mp h
    · split at h
      · exact (List.mem_cons.mp h).imp_right (List.mem_cons_of_mem _)
      · rcases List.mem_cons.mp h with rfl | h
        · exact .inr List.mem_cons_self
        · exact (ih h).imp_right (List.mem_cons_of_mem _)

/-- Sorted fields stay sorted. -/
theorem pairwise_insertSorted (h : (fields.map (·.1)).Pairwise (· < ·)) :
    ((insertSorted key value fields).map (·.1)).Pairwise (· < ·) := by
  induction fields with
  | nil => exact List.pairwise_singleton _ _
  | cons first rest ih =>
    obtain ⟨k, v⟩ := first
    obtain ⟨hfirst, hrest⟩ := List.pairwise_cons.mp h
    rw [insertSorted]
    split
    · rename_i hlt
      refine List.pairwise_cons.mpr ⟨fun other hother => ?_, h⟩
      rcases List.mem_cons.mp hother with rfl | hother
      · exact hlt
      · exact lt_trans hlt (hfirst other hother)
    · rename_i hnot
      split
      · rename_i heq
        subst heq
        exact h
      · rename_i hne
        refine List.pairwise_cons.mpr ⟨fun other hother => ?_, ih hrest⟩
        obtain ⟨field, hfield, rfl⟩ := List.mem_map.mp hother
        rcases mem_insertSorted hfield with rfl | hfield
        · exact lt_of_le_of_ne (not_lt.mp hnot) hne
        · exact hfirst _ (List.mem_map_of_mem hfield)

theorem isWellFormed_sortedObject (h : ∀ field ∈ fields, field.2.IsWellFormed) :
    (sortedObject fields).IsWellFormed := by
  rw [sortedObject, IsWellFormed, valuesWellFormed_iff]
  induction fields using List.reverseRecOn with
  | nil => exact ⟨List.Pairwise.nil, fun _ hmem => (List.not_mem_nil hmem).elim⟩
  | append_singleton fields last ih =>
    obtain ⟨hsorted, hvalues⟩ := ih fun field hfield => h field (List.mem_append_left _ hfield)
    rw [List.foldl_append]
    refine ⟨pairwise_insertSorted hsorted, fun field hfield => ?_⟩
    rcases mem_insertSorted hfield with rfl | hfield
    · exact h last (List.mem_append_right _ (List.mem_singleton_self _))
    · exact hvalues field hfield

end Json

namespace Tree

mutual

/-- The value in a tree is well formed. -/
theorem isWellFormed_of_json? : ∀ (tree : Tree) {value : Json}, tree.HoldsIntegers →
    tree.json? = some value → value.IsWellFormed
  | unreadable, value, _, h => by simp [json?] at h
  | null, value, _, h | bool _, value, _, h | text _, value, _, h => by
    rw [json?] at h
    cases h
    trivial
  | number n, value, htree, h => by
    rw [json?] at h
    cases h
    split
    · rename_i hfinite
      exact Number.isWellFormed_iff.mpr ⟨htree, hfinite⟩
    · trivial
  | sequence items, value, htree, h => by
    rw [json?] at h
    obtain ⟨values, hvalues, rfl⟩ := Option.map_eq_some_iff.mp h
    exact Json.allWellFormed_iff.mpr (isWellFormed_of_jsonItems? items htree hvalues)
  | mapping entries, value, htree, h => by
    rw [json?] at h
    obtain ⟨fields, hfields, rfl⟩ := Option.map_eq_some_iff.mp h
    exact Json.isWellFormed_sortedObject (isWellFormed_of_jsonFields? entries htree hfields)

theorem isWellFormed_of_jsonItems? : ∀ (items : List Tree) {values : List Json},
    AllHoldIntegers items → jsonItems? items = some values → ∀ value ∈ values, value.IsWellFormed
  | [], values, _, h => by
    rw [jsonItems?] at h
    cases h
    exact fun value hvalue => (List.not_mem_nil hvalue).elim
  | item :: rest, values, hitems, h => by
    rw [jsonItems?] at h
    obtain ⟨first, hfirst, h⟩ := Option.bind_eq_some_iff.mp h
    obtain ⟨others, hothers, h⟩ := Option.bind_eq_some_iff.mp h
    cases h
    exact List.forall_mem_cons.mpr ⟨isWellFormed_of_json? item hitems.1 hfirst,
      isWellFormed_of_jsonItems? rest hitems.2 hothers⟩

theorem isWellFormed_of_jsonFields? : ∀ (entries : List (Tree × Tree))
    {fields : List (String × Json)}, ValuesHoldIntegers entries →
      jsonFields? entries = some fields → ∀ field ∈ fields, field.2.IsWellFormed
  | [], fields, _, h => by
    rw [jsonFields?] at h
    cases h
    exact fun field hfield => (List.not_mem_nil hfield).elim
  | (.text key, item) :: rest, fields, hentries, h => by
    rw [jsonFields?] at h
    obtain ⟨first, hfirst, h⟩ := Option.bind_eq_some_iff.mp h
    obtain ⟨others, hothers, h⟩ := Option.bind_eq_some_iff.mp h
    cases h
    exact List.forall_mem_cons.mpr ⟨isWellFormed_of_json? item hentries.1 hfirst,
      isWellFormed_of_jsonFields? rest hentries.2 hothers⟩
  | (.unreadable, _) :: _, _, _, h | (.null, _) :: _, _, _, h | (.bool _, _) :: _, _, _, h
  | (.number _, _) :: _, _, _, h
  | (.sequence _, _) :: _, _, _, h | (.mapping _, _) :: _, _, _, h => by
    simp [jsonFields?] at h

end

/-! ## Facets -/

variable {tree : Tree}

theorem isWellFormed_of_number? (htree : tree.HoldsIntegers) {value : Number}
    (h : tree.number? = some value) : value.IsWellFormed := by
  rw [number?.eq_def] at h
  split at h
  · obtain ⟨hfinite, h⟩ := Option.ite_none_right_eq_some.mp h
    cases h
    exact Number.isWellFormed_iff.mpr ⟨htree, hfinite⟩
  · cases h

theorem lt_of_natural? (htree : tree.HoldsIntegers) {value : Nat}
    (h : tree.natural? = some value) : value < unsignedBound := by
  rw [natural?.eq_def] at h
  split at h
  · rw [Number.natural?.eq_def] at h
    split at h
    · obtain ⟨hpos, h⟩ := Option.ite_none_right_eq_some.mp h
      cases h
      have hbound := htree.2
      omega
    · cases h
  · cases h

end Tree

/-- What the facets of a schema hold is well formed. -/
structure Facets.IsWellFormed (facets : Facets) : Prop where
  minProperties : ∀ count ∈ facets.minProperties, count < unsignedBound
  maxProperties : ∀ count ∈ facets.maxProperties, count < unsignedBound
  mapping : ∀ given ∈ facets.discriminator, (Dictionary.keys given.mapping).Nodup
  enumValues : ∀ value ∈ facets.enumValues, value.IsWellFormed
  minimum : ∀ bound ∈ facets.minimum, bound.IsWellFormed
  maximum : ∀ bound ∈ facets.maximum, bound.IsWellFormed
  exclusiveMinimum : ∀ bound, facets.exclusiveMinimum = some (.value bound) → bound.IsWellFormed
  exclusiveMaximum : ∀ bound, facets.exclusiveMaximum = some (.value bound) → bound.IsWellFormed
  multipleOf : ∀ factor ∈ facets.multipleOf, factor.IsWellFormed
  minLength : ∀ count ∈ facets.minLength, count < unsignedBound
  maxLength : ∀ count ∈ facets.maxLength, count < unsignedBound
  minItems : ∀ count ∈ facets.minItems, count < unsignedBound
  maxItems : ∀ count ∈ facets.maxItems, count < unsignedBound

namespace Facets

theorem isWellFormed_empty : IsWellFormed {} := by
  constructor <;> nofun

theorem isWellFormed_of_readExclusive? {value : Tree} (hvalue : value.HoldsIntegers)
    {bound : Number} (h : readExclusive? value = some (.value bound)) : bound.IsWellFormed := by
  rw [readExclusive?] at h
  cases hflag : value.bool? with
  | some flag => simp [hflag] at h
  | none =>
    rw [hflag] at h
    obtain ⟨number, hnumber, heq⟩ :=
      Option.map_eq_some_iff.mp (h : value.number?.map ExclusiveBound.value = _)
    cases heq
    exact Tree.isWellFormed_of_number? hvalue hnumber

/-- Reading a facet adds what is well formed. -/
theorem IsWellFormed.read? {facets facets' : Facets} {keyword : Keyword} {value : Tree}
    (hfacets : facets.IsWellFormed) (hvalue : value.HoldsIntegers)
    (h : facets.read? keyword value = some facets') : facets'.IsWellFormed := by
  have hnumber : ∀ {result}, value.optional? Tree.number? = some result →
      ∀ bound ∈ result, bound.IsWellFormed := by
    intro result hread bound hbound
    rcases Tree.eq_none_or_of_optional? hread with rfl | ⟨_, hgiven, rfl⟩ <;> cases hbound
    exact Tree.isWellFormed_of_number? hvalue hgiven
  have hnatural : ∀ {result}, value.optional? Tree.natural? = some result →
      ∀ count ∈ result, count < unsignedBound := by
    intro result hread count hcount
    rcases Tree.eq_none_or_of_optional? hread with rfl | ⟨_, hgiven, rfl⟩ <;> cases hcount
    exact Tree.lt_of_natural? hvalue hgiven
  have hexclusive : ∀ {result}, value.optional? readExclusive? = some result →
      ∀ bound, result = some (.value bound) → bound.IsWellFormed := by
    rintro result hread bound rfl
    rcases Tree.eq_none_or_of_optional? hread with heq | ⟨_, hgiven, heq⟩ <;> cases heq
    exact isWellFormed_of_readExclusive? hvalue hgiven
  cases keyword with
  | properties | additional | items | allOf | oneOf | anyOf => cases h
  | types | format | title | description | nullable | required | pattern =>
    obtain ⟨_, -, rfl⟩ := Option.map_eq_some_iff.mp h
    exact { hfacets with }
  | discriminator =>
    have hmapping := nodup_mapping_of_read? hfacets.mapping h
    obtain ⟨_, -, rfl⟩ := Option.map_eq_some_iff.mp h
    exact { hfacets with mapping := hmapping }
  | enumValues =>
    obtain ⟨values, hread, rfl⟩ := Option.map_eq_some_iff.mp h
    refine { hfacets with enumValues := ?_ }
    cases value with
    | sequence items =>
      intro given hgiven
      obtain ⟨item, hitem, hread⟩ := exists_of_mem_mapM hread given hgiven
      exact Tree.isWellFormed_of_json? item (Tree.allHoldIntegers_iff.mp hvalue item hitem) hread
    | _ => cases hread
  | minimum =>
    obtain ⟨_, hread, rfl⟩ := Option.map_eq_some_iff.mp h
    exact { hfacets with minimum := hnumber hread }
  | maximum =>
    obtain ⟨_, hread, rfl⟩ := Option.map_eq_some_iff.mp h
    exact { hfacets with maximum := hnumber hread }
  | multipleOf =>
    obtain ⟨_, hread, rfl⟩ := Option.map_eq_some_iff.mp h
    exact { hfacets with multipleOf := hnumber hread }
  | exclusiveMinimum =>
    obtain ⟨_, hread, rfl⟩ := Option.map_eq_some_iff.mp h
    exact { hfacets with exclusiveMinimum := hexclusive hread }
  | exclusiveMaximum =>
    obtain ⟨_, hread, rfl⟩ := Option.map_eq_some_iff.mp h
    exact { hfacets with exclusiveMaximum := hexclusive hread }
  | minProperties =>
    obtain ⟨_, hread, rfl⟩ := Option.map_eq_some_iff.mp h
    exact { hfacets with minProperties := hnatural hread }
  | maxProperties =>
    obtain ⟨_, hread, rfl⟩ := Option.map_eq_some_iff.mp h
    exact { hfacets with maxProperties := hnatural hread }
  | minLength =>
    obtain ⟨_, hread, rfl⟩ := Option.map_eq_some_iff.mp h
    exact { hfacets with minLength := hnatural hread }
  | maxLength =>
    obtain ⟨_, hread, rfl⟩ := Option.map_eq_some_iff.mp h
    exact { hfacets with maxLength := hnatural hread }
  | minItems =>
    obtain ⟨_, hread, rfl⟩ := Option.map_eq_some_iff.mp h
    exact { hfacets with minItems := hnatural hread }
  | maxItems =>
    obtain ⟨_, hread, rfl⟩ := Option.map_eq_some_iff.mp h
    exact { hfacets with maxItems := hnatural hread }

end Facets

/-! ## Documents -/

/-- The keywords, apart from schemas in them, are well formed. -/
structure Keywords.IsWellFormed (k : Keywords Schema) : Prop where
  facets : k.toFacets.IsWellFormed
  properties : (Dictionary.keys k.properties).Nodup

/-- Reading keywords keeps them well formed, where integers have 64 bits. -/
theorem Keywords.isKept_isWellFormed : IsKept Tree.HoldsIntegers Keywords.IsWellFormed where
  hereditary := Tree.isHereditary_holdsIntegers
  empty := ⟨Facets.isWellFormed_empty, List.nodup_nil⟩
  read? := by
    intro k k' keyword value readings hk hvalue h
    refine ⟨?_, nodup_properties_of_read? hk.properties h⟩
    rcases toFacets_of_read? h with heq | hread
    · rw [heq]
      exact hk.facets
    · exact hk.facets.read? hvalue hread

/-- The schemas of the document have different names and are well formed throughout. -/
structure Document.IsWellFormed (document : Document) : Prop where
  names : (Dictionary.keys document.schemas).Nodup
  schemas : ∀ entry ∈ document.schemas, entry.2.Everywhere Keywords.IsWellFormed

/-- **Documents that are read are well formed.** -/
theorem Document.isWellFormed_of_read {format : Format} {text : String} {document : Document}
    (h : Document.read format text = .ok document) : document.IsWellFormed := by
  obtain ⟨hnames, hschemas⟩ :=
    everywhere_of_read Keywords.isKept_isWellFormed Tree.isRead_holdsIntegers h
  exact ⟨hnames, hschemas⟩

end PojoGraph
