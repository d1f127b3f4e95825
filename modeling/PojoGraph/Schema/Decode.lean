import PojoGraph.Schema.Keyword

/-!
# Reading schemas

A schema is read from a tree whose every place is readable. It is a reference if it is a mapping
with one text under `$ref`, whatever else stands there; otherwise its entries are read as
keywords. Entries that are no keywords are ignored; a keyword given twice, or with a value of
another kind than it takes, is an error.

## Main definitions

* `Tree.isReadable` — whether every place of a tree is readable.
* `FieldKey` — how an entry names the field it is for.
* `Schema.decode?` — the schema in a tree.
-/

namespace PojoGraph

/-! ## Values -/

namespace Tree

mutual

/-- Whether every place of the tree is readable. -/
def isReadable : Tree → Bool
  | unreadable => false
  | null => true
  | bool _ => true
  | number _ => true
  | text _ => true
  | sequence items => areReadable items
  | mapping entries => areEntriesReadable entries

/-- Whether every place of a list of trees is readable. -/
def areReadable : List Tree → Bool
  | [] => true
  | item :: rest => item.isReadable && areReadable rest

/-- Whether every place of a list of entries is readable, keys included. -/
def areEntriesReadable : List (Tree × Tree) → Bool
  | [] => true
  | (key, value) :: rest => key.isReadable && value.isReadable && areEntriesReadable rest

end

/-- The text of a text. -/
def text? : Tree → Option String
  | text value => some value
  | _ => none

/-- The value of a truth value. -/
def bool? : Tree → Option Bool
  | bool value => some value
  | _ => none

/-- The value of a finite number. -/
def number? : Tree → Option Number
  | number value => if value.isFinite then some value else none
  | _ => none

/-- The value of a natural number. -/
def natural? : Tree → Option Nat
  | number value => value.natural?
  | _ => none

/-- The items of a sequence, each read. -/
def listOf? {α : Type} (read : Tree → Option α) : Tree → Option (List α)
  | sequence items => items.mapM read
  | _ => none

/-- A value that may be null. -/
def optional? {α : Type} (read : Tree → Option α) : Tree → Option (Option α)
  | null => some none
  | tree => (read tree).map some

/-- The entries of a mapping from texts to texts. -/
def texts? : Tree → Option (Dictionary String)
  | mapping entries =>
    (entries.mapM fun (entry : Tree × Tree) => do
      some ((← entry.1.text?), (← entry.2.text?))).map Dictionary.ofEntries
  | _ => none

end Tree

/-- How an entry names the field it is for: by a name, or by its place in the order of fields. -/
inductive FieldKey where
  | name (name : String)
  | place (index : Nat)
  deriving DecidableEq, Repr

/-- The field that a key names; keys of other kinds than texts and natural numbers are errors. -/
def FieldKey.ofTree? : Tree → Option FieldKey
  | .text spelling => some (.name spelling)
  | .number value => value.natural?.map .place
  | _ => none

/-- The place among `fields` that a key names, if it is one of them. -/
def FieldKey.index? (fields : List String) : FieldKey → Option Nat
  | .name n => fields.idxOf? n
  | .place index => if index < fields.length then some index else none

/-- The values of a record's fields in a tree: given by name, each at most once, or listed in
order without names. -/
def Tree.fields? (names : List String) : Tree → Option (List (Option Tree))
  | .mapping entries => do
    let found ← entries.mapM fun (entry : Tree × Tree) => do
      some ((← FieldKey.ofTree? entry.1).index? names, entry.2)
    names.zipIdx.mapM fun (_, index) =>
      match found.filter (·.1 == some index) with
      | [] => some none
      | [(_, value)] => some (some value)
      | _ => none
  | .sequence items =>
    if items.length ≤ names.length then
      some (items.map some ++ List.replicate (names.length - items.length) none)
    else none
  | _ => none

/-! ## Facets -/

namespace Facets

/-- A type keyword's value: a name, or a mapping from a name to null. -/
def readType? : Tree → Option SchemaType
  | .text name => SchemaType.ofKeyword? name
  | .mapping [(key, .null)] => do
    let index ← (← FieldKey.ofTree? key).index? (SchemaType.all.map SchemaType.keyword)
    SchemaType.all[index]?
  | _ => none

/-- One type, or a list of types. -/
def readTypes? (tree : Tree) : Option TypeSet :=
  (readType? tree).map .single <|> (tree.listOf? readType?).map .multiple

/-- A flag or a bound. -/
def readExclusive? (tree : Tree) : Option ExclusiveBound :=
  tree.bool?.map .flag <|> tree.number?.map .value

/-- A property and, where given, a mapping. -/
def readDiscriminator? (tree : Tree) : Option DiscriminatorKeyword := do
  match ← tree.fields? ["propertyName", "mapping"] with
  | [some property, some mapping] => some ⟨← property.text?, ← mapping.texts?⟩
  | [some property, none] => some ⟨← property.text?, []⟩
  | _ => none

/-- The facets with one more keyword read. Keywords that hold schemas are none of them. -/
def read? (facets : Facets) (keyword : Keyword) (value : Tree) : Option Facets :=
  match keyword with
  | .types => (value.optional? readTypes?).map ({ facets with types := · })
  | .format => (value.optional? Tree.text?).map ({ facets with format := · })
  | .title => (value.optional? Tree.text?).map ({ facets with title := · })
  | .description => (value.optional? Tree.text?).map ({ facets with description := · })
  | .nullable => (value.optional? Tree.bool?).map ({ facets with nullable := · })
  | .required => (value.listOf? Tree.text?).map ({ facets with required := · })
  | .minProperties => (value.optional? Tree.natural?).map ({ facets with minProperties := · })
  | .maxProperties => (value.optional? Tree.natural?).map ({ facets with maxProperties := · })
  | .discriminator =>
    (value.optional? readDiscriminator?).map ({ facets with discriminator := · })
  | .enumValues => (value.listOf? Tree.json?).map ({ facets with enumValues := · })
  | .minimum => (value.optional? Tree.number?).map ({ facets with minimum := · })
  | .maximum => (value.optional? Tree.number?).map ({ facets with maximum := · })
  | .exclusiveMinimum =>
    (value.optional? readExclusive?).map ({ facets with exclusiveMinimum := · })
  | .exclusiveMaximum =>
    (value.optional? readExclusive?).map ({ facets with exclusiveMaximum := · })
  | .multipleOf => (value.optional? Tree.number?).map ({ facets with multipleOf := · })
  | .minLength => (value.optional? Tree.natural?).map ({ facets with minLength := · })
  | .maxLength => (value.optional? Tree.natural?).map ({ facets with maxLength := · })
  | .pattern => (value.optional? Tree.text?).map ({ facets with pattern := · })
  | .minItems => (value.optional? Tree.natural?).map ({ facets with minItems := · })
  | .maxItems => (value.optional? Tree.natural?).map ({ facets with maxItems := · })
  | .properties | .additional | .items | .allOf | .oneOf | .anyOf => none

end Facets

/-! ## Schemas -/

/-- What a value is if a keyword takes it for a schema, a list of schemas, or properties. -/
structure SchemaReadings where
  schema : Unit → Option Schema
  schemas : Unit → Option (List Schema)
  properties : Unit → Option (List (String × Schema))

/-- The keywords with one more read. -/
def Keywords.read? (k : Keywords Schema) (keyword : Keyword) (value : Tree)
    (readings : SchemaReadings) : Option (Keywords Schema) :=
  match keyword with
  | .properties =>
    (readings.properties ()).map fun entries =>
      { k with properties := Dictionary.ofEntries entries }
  | .additional =>
    match value with
    | .null => some { k with additional := none }
    | .bool allowed => some { k with additional := some (.flag allowed) }
    | _ => (readings.schema ()).map fun schema => { k with additional := some (.schema schema) }
  | .items =>
    match value with
    | .null => some { k with items := none }
    | _ => (readings.schema ()).map fun schema => { k with items := some schema }
  | .allOf => (readings.schemas ()).map ({ k with allOf := · })
  | .oneOf => (readings.schemas ()).map ({ k with oneOf := · })
  | .anyOf => (readings.schemas ()).map ({ k with anyOf := · })
  | _ => (k.toFacets.read? keyword value).map fun facets => { k with toFacets := facets }

namespace Schema

/-- The name of the entry that makes a schema a reference. -/
def refField : String := "$ref"

/-- The target of a reference: the one text that stands under `$ref`. -/
def refTarget? (entries : List (Tree × Tree)) : Option String := do
  let found ← entries.mapM fun (entry : Tree × Tree) => do
    some ((← FieldKey.ofTree? entry.1).index? [refField], entry.2)
  match found.filter (·.1.isSome) with
  | [(_, .text target)] => some target
  | _ => none

mutual

/-- The schema in a tree that is readable throughout. -/
def read? : Tree → Option Schema
  | .mapping entries =>
    match refTarget? entries with
    | some target => some (.ref target)
    | none => (readEntries? {} [] entries).map .inline
  | .sequence items => (readPlaces? {} Keyword.all items).map .inline
  | _ => none

/-- The schemas in a sequence. -/
def readList? : Tree → Option (List Schema)
  | .sequence items => readItems? items
  | _ => none

/-- The schemas in a list of trees. -/
def readItems? : List Tree → Option (List Schema)
  | [] => some []
  | item :: rest => do
    let schema ← read? item
    let schemas ← readItems? rest
    some (schema :: schemas)

/-- The properties in a mapping, in the order in which they are written. -/
def readProperties? : Tree → Option (List (String × Schema))
  | .mapping entries => readEach? entries
  | _ => none

/-- The properties in a list of entries. -/
def readEach? : List (Tree × Tree) → Option (List (String × Schema))
  | [] => some []
  | (.text key, value) :: rest => do
    let schema ← read? value
    let properties ← readEach? rest
    some ((key, schema) :: properties)
  | _ :: _ => none

/-- The keywords so far, of which `seen` have been given, with those in a list of entries. -/
def readEntries? (k : Keywords Schema) (seen : List Keyword) :
    List (Tree × Tree) → Option (Keywords Schema)
  | [] => some k
  | (key, value) :: rest => do
    let field ← FieldKey.ofTree? key
    match field.index? (Keyword.all.map Keyword.spelling) with
    | none => readEntries? k seen rest
    | some index =>
      let keyword := Keyword.all.getD index .types
      if seen.contains keyword then none
      else
        let k ← k.read? keyword value
          ⟨fun _ => read? value, fun _ => readList? value, fun _ => readProperties? value⟩
        readEntries? k (keyword :: seen) rest

/-- The keywords so far with those listed in order of `keywords`, none of which may be
missing. -/
def readPlaces? (k : Keywords Schema) : List Keyword → List Tree → Option (Keywords Schema)
  | [], [] => some k
  | keyword :: keywords, value :: rest => do
    let k ← k.read? keyword value
      ⟨fun _ => read? value, fun _ => readList? value, fun _ => readProperties? value⟩
    readPlaces? k keywords rest
  | _, _ => none

end

/-- The schema in a tree. -/
def decode? (tree : Tree) : Option Schema :=
  if tree.isReadable then read? tree else none

end Schema

end PojoGraph
