import Mathlib.Data.List.Induction
import PojoGraph.Document.Load
import PojoGraph.Proofs.Classification.Everywhere

/-!
# What holds of all that is read

A schema is read one keyword at a time. A property of keywords that holds of none, and is kept by
each keyword that is read, holds throughout every schema that is read, and so in the documents. It
may be kept only by values of some kind, which the trees that readers find are and which is passed
on to the places inside them.

## Main definitions

* `Tree.IsHereditary`, `Source.IsHereditary` — a kind of trees, or places, is passed on inside.
* `Tree.IsRead` — the trees of all texts are of a kind.
* `Keywords.IsKept` — reading a value of some kind keeps a property of keywords.

## Main statements

* `Schema.everywhere_of_read?` — what is kept holds throughout every schema that is read.
* `Document.everywhere_of_read` — and in every document in a text.
* `DocumentSet.forall_documents_of_load` — what holds of all documents in texts holds in loaded
  sets.
-/

namespace PojoGraph

/-! ## Dictionaries and lists -/

/-- A dictionary of entries has no key twice, and no values but those of the entries. -/
theorem Dictionary.ofEntries_spec {α : Type} (entries : List (String × α)) :
    (ofEntries entries).keys.Nodup ∧ ∀ entry ∈ ofEntries entries, entry ∈ entries := by
  induction entries using List.reverseRecOn with
  | nil => exact ⟨List.nodup_nil, fun entry h => h⟩
  | append_singleton entries last ih =>
    rw [ofEntries, List.foldl_append, ← ofEntries]
    refine ⟨nodup_keys_insert ih.1, fun entry h => ?_⟩
    rcases mem_of_mem_insert h with rfl | h
    · exact List.mem_append_right _ (List.mem_singleton_self _)
    · exact List.mem_append_left _ (ih.2 entry h)

/-- What a partial function gives on a list are its results on members of the list. -/
theorem exists_of_mem_mapM {α β : Type} {f : α → Option β} {as : List α} {bs : List β}
    (h : as.mapM f = some bs) : ∀ b ∈ bs, ∃ a ∈ as, f a = some b := by
  induction as generalizing bs with
  | nil =>
    cases h
    exact fun b hb => (List.not_mem_nil hb).elim
  | cons a rest ih =>
    rw [List.mapM_cons] at h
    obtain ⟨first, hfirst, h⟩ := Option.bind_eq_some_iff.mp h
    obtain ⟨others, hothers, h⟩ := Option.bind_eq_some_iff.mp h
    cases h
    refine List.forall_mem_cons.mpr ⟨⟨a, List.mem_cons_self, hfirst⟩, fun b hb => ?_⟩
    obtain ⟨a', ha', hb⟩ := ih hothers b hb
    exact ⟨a', List.mem_cons_of_mem _ ha', hb⟩

/-! ## Kinds of trees -/

/-- What is in a tree of the kind is of the kind. Keys of mappings may be of another. -/
structure Tree.IsHereditary (T : Tree → Prop) : Prop where
  item : ∀ {items item}, T (.sequence items) → item ∈ items → T item
  value : ∀ {entries} {entry : Tree × Tree}, T (.mapping entries) → entry ∈ entries → T entry.2

/-- What is inside a place of the kind `S` is of that kind, and the tree there is of the kind
`T`. -/
structure Source.IsHereditary {τ : Type} [Source τ] (S : τ → Prop) (T : Tree → Prop) : Prop where
  field : ∀ {names least place fields inner}, fields? names least place = some fields →
    S place → some inner ∈ fields → S inner
  entry : ∀ {place entries} {entry : String × τ}, entries? place = some entries →
    S place → entry ∈ entries → S entry.2
  tree : ∀ {place tree}, tree? place = some tree → S place → T tree

/-- The fields of a record are places in its tree. -/
theorem Tree.IsHereditary.of_fields? {T : Tree → Prop} (hT : Tree.IsHereditary T)
    {names : List String} {tree inner : Tree} {fields : List (Option Tree)}
    (h : tree.fields? names = some fields) (htree : T tree) (hinner : some inner ∈ fields) :
    T inner := by
  cases tree with
  | mapping entries =>
    obtain ⟨found, hfound, h⟩ := Option.bind_eq_some_iff.mp h
    obtain ⟨place, -, hplace⟩ := exists_of_mem_mapM h _ hinner
    dsimp only at hplace
    split at hplace
    · cases hplace
    · rename_i index value hfilter
      cases hplace
      have hmem : (index, inner) ∈ found :=
        List.mem_of_mem_filter (hfilter ▸ List.mem_singleton_self _)
      obtain ⟨entry, hentry, hread⟩ := exists_of_mem_mapM hfound _ hmem
      obtain ⟨key, -, hread⟩ := Option.bind_eq_some_iff.mp hread
      cases hread
      exact hT.value htree hentry
    · cases hplace
  | sequence items =>
    rw [fields?] at h
    split at h
    · cases h
      rcases List.mem_append.mp hinner with hitem | hnone
      · obtain ⟨item, hitem, heq⟩ := List.mem_map.mp hitem
        cases heq
        exact hT.item htree hitem
      · cases List.eq_of_mem_replicate hnone
    · cases h
  | _ => cases h

/-- Places in trees of a kind are of that kind. -/
theorem Tree.IsHereditary.source {T : Tree → Prop} (hT : Tree.IsHereditary T) :
    Source.IsHereditary T T where
  field := by
    intro names least tree fields inner h htree hinner
    have hfields : tree.fields? names = some fields := by
      cases tree with
      | sequence items =>
        simp only [Source.fields?] at h
        split at h
        · cases h
        · exact h
      | _ => exact h
    exact hT.of_fields? hfields htree hinner
  entry := by
    intro tree entries entry h htree hentry
    cases tree with
    | mapping _ =>
      obtain ⟨inner, hinner, hread⟩ := exists_of_mem_mapM h _ hentry
      obtain ⟨key, -, hread⟩ := Option.bind_eq_some_iff.mp hread
      cases hread
      exact hT.value htree hinner
    | _ => cases h
  tree := by
    rintro place tree ⟨⟩ hplace
    exact hplace

/-! ## Keywords -/

/-- What a tree is if a keyword takes it for a schema, a list of schemas, or properties. -/
def Tree.readings (tree : Tree) : SchemaReadings :=
  ⟨fun _ => Schema.read? tree, fun _ => Schema.readList? tree, fun _ => Schema.readProperties? tree⟩

/-- One of the schemas that a value is, or holds in a list or as properties. -/
inductive SchemaReadings.Reads (readings : SchemaReadings) : Schema → Prop where
  | schema {schema} (h : readings.schema () = some schema) : readings.Reads schema
  | schemas {schemas schema} (h : readings.schemas () = some schemas) (hmem : schema ∈ schemas) :
    readings.Reads schema
  | properties {properties property} (h : readings.properties () = some properties)
    (hmem : property ∈ properties) : readings.Reads property.2

namespace Keywords

variable {T : Tree → Prop} {P : Keywords Schema → Prop} {k k' : Keywords Schema}
  {keyword : Keyword} {value : Tree} {readings : SchemaReadings}

/-- The property holds of no keywords, and reading a value of the kind `T` for one more keeps
it. -/
structure IsKept (T : Tree → Prop) (P : Keywords Schema → Prop) : Prop where
  hereditary : Tree.IsHereditary T
  empty : P {}
  read? : ∀ {k k' keyword value readings}, P k → T value →
    Keywords.read? k keyword value readings = some k' → P k'

/-- Reading a keyword leaves the facets alone, or reads one of them. -/
theorem toFacets_of_read? (h : k.read? keyword value readings = some k') :
    k'.toFacets = k.toFacets ∨ k.toFacets.read? keyword value = some k'.toFacets := by
  cases keyword with
  | additional | items =>
    rw [Keywords.read?.eq_def] at h
    dsimp only at h
    split at h
    all_goals first
      | cases h; exact .inl rfl
      | obtain ⟨_, -, rfl⟩ := Option.map_eq_some_iff.mp h; exact .inl rfl
  | properties | allOf | oneOf | anyOf =>
    obtain ⟨_, -, rfl⟩ := Option.map_eq_some_iff.mp h
    exact .inl rfl
  | _ =>
    obtain ⟨facets, hfacets, rfl⟩ := Option.map_eq_some_iff.mp h
    exact .inr hfacets

/-- Reading a keyword leaves the properties alone, or makes a dictionary of them. -/
theorem properties_of_read? (h : k.read? keyword value readings = some k') :
    k'.properties = k.properties ∨ ∃ entries, k'.properties = Dictionary.ofEntries entries := by
  cases keyword with
  | additional | items =>
    rw [Keywords.read?.eq_def] at h
    dsimp only at h
    split at h
    all_goals first
      | cases h; exact .inl rfl
      | obtain ⟨_, -, rfl⟩ := Option.map_eq_some_iff.mp h; exact .inl rfl
  | properties =>
    obtain ⟨entries, -, rfl⟩ := Option.map_eq_some_iff.mp h
    exact .inr ⟨entries, rfl⟩
  | _ =>
    obtain ⟨_, -, rfl⟩ := Option.map_eq_some_iff.mp h
    exact .inl rfl

/-- Reading a keyword adds no schemas but those in its value. -/
theorem mem_children_of_read? (h : k.read? keyword value readings = some k') {child : Schema}
    (hchild : child ∈ k'.children) : child ∈ k.children ∨ readings.Reads child := by
  simp only [children, List.mem_append, List.mem_map, Option.mem_toList] at hchild ⊢
  cases keyword with
  | properties =>
    obtain ⟨entries, hentries, rfl⟩ := Option.map_eq_some_iff.mp h
    rcases hchild with ((((⟨property, hmem, rfl⟩ | h) | h) | h) | h) | h
    · exact .inr (.properties hentries ((Dictionary.ofEntries_spec entries).2 property hmem))
    all_goals grind
  | additional =>
    rw [Keywords.read?.eq_def] at h
    dsimp only at h
    split at h
    · cases h
      simp_all
    · cases h
      simp_all
    · obtain ⟨schema, hschema, rfl⟩ := Option.map_eq_some_iff.mp h
      rcases hchild with hchild | hchild
      · grind
      · obtain rfl := List.mem_singleton.mp hchild
        exact .inr (.schema hschema)
  | items =>
    rw [Keywords.read?.eq_def] at h
    dsimp only at h
    split at h
    · cases h
      grind
    · obtain ⟨schema, hschema, rfl⟩ := Option.map_eq_some_iff.mp h
      rcases hchild with ((((h | hitem) | h) | h) | h) | h
      · grind
      · cases hitem
        exact .inr (.schema hschema)
      all_goals grind
  | allOf | oneOf | anyOf =>
    obtain ⟨schemas, hschemas, rfl⟩ := Option.map_eq_some_iff.mp h
    have hreads := fun hmem : child ∈ schemas => SchemaReadings.Reads.schemas hschemas hmem
    grind
  | _ =>
    obtain ⟨facets, -, rfl⟩ := Option.map_eq_some_iff.mp h
    exact .inl hchild

/-- What is kept stays throughout the keywords, if it holds throughout what is read. -/
theorem IsKept.everywhere (hP : IsKept T P) (hk : Schema.Everywhere P (.inline k))
    (hvalue : T value) (hreadings : ∀ schema, readings.Reads schema → schema.Everywhere P)
    (h : k.read? keyword value readings = some k') : Schema.Everywhere P (.inline k') := by
  obtain ⟨hhere, hchildren⟩ := Schema.Everywhere.inline_iff.mp hk
  refine Schema.Everywhere.inline_iff.mpr ⟨hP.read? hhere hvalue h, fun child hchild => ?_⟩
  rcases mem_children_of_read? h hchild with hold | hnew
  · exact hchildren child hold
  · exact hreadings child hnew

end Keywords

/-! ## Schemas -/

namespace Schema

variable {T : Tree → Prop} {P : Keywords Schema → Prop}

-- Each function that reads has a lemma, with the induction that its recursion gives.
mutual

/-- **What is kept holds throughout every schema that is read.** -/
theorem everywhere_of_read? (hP : Keywords.IsKept T P) :
    ∀ (tree : Tree) {schema : Schema}, T tree → read? tree = some schema → schema.Everywhere P
  | .mapping entries, schema, htree, h => by
    rw [read?] at h
    split at h
    · cases h
      exact .ref _
    · obtain ⟨k, hk, rfl⟩ := Option.map_eq_some_iff.mp h
      exact everywhere_of_readEntries? hP entries (fun entry => hP.hereditary.value htree)
        (.ofFacets hP.empty) hk
  | .sequence items, schema, htree, h => by
    rw [read?] at h
    obtain ⟨k, hk, rfl⟩ := Option.map_eq_some_iff.mp h
    exact everywhere_of_readPlaces? hP items (fun item => hP.hereditary.item htree)
      (.ofFacets hP.empty) hk
  | .unreadable, _, _, h | .null, _, _, h | .bool _, _, _, h | .number _, _, _, h
  | .text _, _, _, h => by
    simp [read?] at h

theorem everywhere_of_readItems? (hP : Keywords.IsKept T P) :
    ∀ (items : List Tree) {schemas : List Schema}, (∀ item ∈ items, T item) →
      readItems? items = some schemas → ∀ schema ∈ schemas, schema.Everywhere P
  | [], schemas, _, h => by
    rw [readItems?] at h
    cases h
    exact fun schema hschema => (List.not_mem_nil hschema).elim
  | item :: rest, schemas, hitems, h => by
    obtain ⟨hitem, hrest⟩ := List.forall_mem_cons.mp hitems
    rw [readItems?] at h
    obtain ⟨first, hfirst, h⟩ := Option.bind_eq_some_iff.mp h
    obtain ⟨others, hothers, h⟩ := Option.bind_eq_some_iff.mp h
    cases h
    exact List.forall_mem_cons.mpr ⟨everywhere_of_read? hP item hitem hfirst,
      everywhere_of_readItems? hP rest hrest hothers⟩

theorem everywhere_of_readEach? (hP : Keywords.IsKept T P) :
    ∀ (entries : List (Tree × Tree)) {properties : List (String × Schema)},
      (∀ entry ∈ entries, T entry.2) → readEach? entries = some properties →
        ∀ property ∈ properties, property.2.Everywhere P
  | [], properties, _, h => by
    rw [readEach?] at h
    cases h
    exact fun property hproperty => (List.not_mem_nil hproperty).elim
  | (.text key, value) :: rest, properties, hentries, h => by
    obtain ⟨hvalue, hrest⟩ := List.forall_mem_cons.mp hentries
    rw [readEach?] at h
    obtain ⟨schema, hschema, h⟩ := Option.bind_eq_some_iff.mp h
    obtain ⟨others, hothers, h⟩ := Option.bind_eq_some_iff.mp h
    cases h
    exact List.forall_mem_cons.mpr ⟨everywhere_of_read? hP value hvalue hschema,
      everywhere_of_readEach? hP rest hrest hothers⟩
  | (.unreadable, _) :: _, _, _, h | (.null, _) :: _, _, _, h | (.bool _, _) :: _, _, _, h
  | (.number _, _) :: _, _, _, h
  | (.sequence _, _) :: _, _, _, h | (.mapping _, _) :: _, _, _, h => by
    simp [readEach?] at h

theorem everywhere_of_reads (hP : Keywords.IsKept T P) : ∀ value : Tree, T value →
    ∀ schema, value.readings.Reads schema → schema.Everywhere P
  | .sequence items, hvalue, _, .schema h => everywhere_of_read? hP (.sequence items) hvalue h
  | .mapping entries, hvalue, _, .schema h => everywhere_of_read? hP (.mapping entries) hvalue h
  | .sequence items, hvalue, schema, .schemas h hmem =>
    everywhere_of_readItems? hP items (fun item => hP.hereditary.item hvalue) h schema hmem
  | .mapping entries, hvalue, _, .properties h hmem =>
    everywhere_of_readEach? hP entries (fun entry => hP.hereditary.value hvalue) h _ hmem
  | .unreadable, _, _, .schema h | .null, _, _, .schema h | .bool _, _, _, .schema h
  | .number _, _, _, .schema h | .text _, _, _, .schema h => by
    simp [Tree.readings, read?] at h
  | .unreadable, _, _, .schemas h _ | .null, _, _, .schemas h _ | .bool _, _, _, .schemas h _
  | .number _, _, _, .schemas h _ | .text _, _, _, .schemas h _
  | .mapping _, _, _, .schemas h _ => by
    simp [Tree.readings, readList?] at h
  | .unreadable, _, _, .properties h _ | .null, _, _, .properties h _
  | .bool _, _, _, .properties h _ | .number _, _, _, .properties h _
  | .text _, _, _, .properties h _ | .sequence _, _, _, .properties h _ => by
    simp [Tree.readings, readProperties?] at h

theorem everywhere_of_readEntries? (hP : Keywords.IsKept T P) :
    ∀ (entries : List (Tree × Tree)) {k k' : Keywords Schema} {seen : List Keyword},
      (∀ entry ∈ entries, T entry.2) → Everywhere P (.inline k) →
        readEntries? k seen entries = some k' → Everywhere P (.inline k')
  | [], k, k', seen, _, hk, h => by
    rw [readEntries?] at h
    cases h
    exact hk
  | (key, value) :: rest, k, k', seen, hentries, hk, h => by
    obtain ⟨hvalue, hrest⟩ := List.forall_mem_cons.mp hentries
    rw [readEntries?] at h
    obtain ⟨field, -, h⟩ := Option.bind_eq_some_iff.mp h
    dsimp only at h
    split at h
    · exact everywhere_of_readEntries? hP rest hrest hk h
    · split at h
      · cases h
      · obtain ⟨next, hnext, h⟩ := Option.bind_eq_some_iff.mp h
        exact everywhere_of_readEntries? hP rest hrest
          (hP.everywhere hk hvalue (everywhere_of_reads hP value hvalue) hnext) h

theorem everywhere_of_readPlaces? (hP : Keywords.IsKept T P) :
    ∀ (items : List Tree) {k k' : Keywords Schema} {keywords : List Keyword},
      (∀ item ∈ items, T item) → Everywhere P (.inline k) →
        readPlaces? k keywords items = some k' → Everywhere P (.inline k')
  | [], k, k', keywords, _, hk, h => by
    cases keywords with
    | nil =>
      rw [readPlaces?] at h
      cases h
      exact hk
    | cons => simp [readPlaces?] at h
  | value :: rest, k, k', keywords, hitems, hk, h => by
    obtain ⟨hvalue, hrest⟩ := List.forall_mem_cons.mp hitems
    cases keywords with
    | nil => simp [readPlaces?] at h
    | cons keyword keywords =>
      rw [readPlaces?] at h
      obtain ⟨next, hnext, h⟩ := Option.bind_eq_some_iff.mp h
      exact everywhere_of_readPlaces? hP rest hrest
        (hP.everywhere hk hvalue (everywhere_of_reads hP value hvalue) hnext) h

end

end Schema

/-! ## Documents -/

section

open Source

variable {τ : Type} [Source τ] {S : τ → Prop} {T : Tree → Prop} {P : Keywords Schema → Prop}

theorem Schema.everywhere_of_schema? (hP : Keywords.IsKept T P)
    (hS : Source.IsHereditary S T) {place : τ} {schema : Schema} (hplace : S place)
    (h : schema? place = some schema) : schema.Everywhere P := by
  obtain ⟨tree, htree, h⟩ := Option.bind_eq_some_iff.mp h
  rw [decode?] at h
  split at h
  · exact everywhere_of_read? hP tree (hS.tree htree hplace) h
  · cases h

theorem Components.everywhere_of_decode? (hP : Keywords.IsKept T P)
    (hS : Source.IsHereditary S T) {place : τ} {components : Components} (hplace : S place)
    (h : Components.decode? place = some components) :
    (Dictionary.keys components.schemas).Nodup
      ∧ ∀ entry ∈ components.schemas, entry.2.Everywhere P := by
  obtain ⟨fields, hfields, h⟩ := Option.bind_eq_some_iff.mp h
  split at h
  · obtain ⟨schemas, hschemas, h⟩ := Option.bind_eq_some_iff.mp h
    cases h
    obtain ⟨entries, hentries, hschemas⟩ := Option.bind_eq_some_iff.mp hschemas
    obtain ⟨decoded, hdecoded, hschemas⟩ := Option.bind_eq_some_iff.mp hschemas
    cases hschemas
    obtain ⟨hnodup, hmem⟩ := Dictionary.ofEntries_spec decoded
    refine ⟨hnodup, fun entry hentry => ?_⟩
    obtain ⟨inner, hinner, hread⟩ := exists_of_mem_mapM hdecoded entry (hmem entry hentry)
    obtain ⟨schema, hschema, hread⟩ := Option.bind_eq_some_iff.mp hread
    cases hread
    refine Schema.everywhere_of_schema? hP hS (hS.entry hentries ?_ hinner) hschema
    exact hS.field hfields hplace (List.mem_singleton_self _)
  · cases h
    exact ⟨List.nodup_nil, fun entry hentry => (List.not_mem_nil hentry).elim⟩
  · cases h

/-- **What is kept holds throughout the schemas of every document that is read**, and these have
different names. -/
theorem Document.everywhere_of_decode? (hP : Keywords.IsKept T P)
    (hS : Source.IsHereditary S T) {place : τ} {document : Document} (hplace : S place)
    (h : Document.decode? place = some document) :
    (Dictionary.keys document.schemas).Nodup
      ∧ ∀ entry ∈ document.schemas, entry.2.Everywhere P := by
  obtain ⟨fields, hfields, h⟩ := Option.bind_eq_some_iff.mp h
  split at h
  · obtain ⟨openapi, -, h⟩ := Option.bind_eq_some_iff.mp h
    obtain ⟨info, -, h⟩ := Option.bind_eq_some_iff.mp h
    obtain ⟨components, hcomponents, h⟩ := Option.bind_eq_some_iff.mp h
    cases h
    rw [schemas]
    dsimp only
    split
    · rename_i openapiPlace infoPlace found present
      rw [optional?.eq_def] at hcomponents
      split at hcomponents
      · cases hcomponents
      · split at hcomponents
        · cases hcomponents
        · obtain ⟨decoded, hdecoded, hsome⟩ := Option.map_eq_some_iff.mp hcomponents
          cases hsome
          refine Components.everywhere_of_decode? hP hS ?_ hdecoded
          exact hS.field hfields hplace (by simp)
    · exact ⟨List.nodup_nil, fun entry hentry => (List.not_mem_nil hentry).elim⟩
  · cases h

end

/-- The trees of all texts are of the kind. -/
structure Tree.IsRead (T : Tree → Prop) : Prop where
  json : ∀ {text tree}, Json.read? text = some tree → T tree
  yaml : ∀ node : Yaml.Node, T node.tree

theorem Tree.isRead_true : Tree.IsRead fun _ => True :=
  ⟨fun _ => trivial, fun _ => trivial⟩

theorem Tree.isHereditary_true : Tree.IsHereditary fun _ => True :=
  ⟨fun _ _ => trivial, fun _ _ => trivial⟩

/-- What is kept by all values that readers find holds throughout the schemas of every document in
a text, and these have different names. -/
theorem Document.everywhere_of_read {T : Tree → Prop} {P : Keywords Schema → Prop}
    (hP : Keywords.IsKept T P) (hT : Tree.IsRead T) {format : Format} {text : String}
    {document : Document} (h : Document.read format text = .ok document) :
    (Dictionary.keys document.schemas).Nodup
      ∧ ∀ entry ∈ document.schemas, entry.2.Everywhere P := by
  rw [Document.read] at h
  split at h
  · cases h
  · rename_i decoded hdecoded
    split at h
    · cases h
      cases format with
      | json =>
        obtain ⟨tree, htree, hdecoded⟩ := Option.bind_eq_some_iff.mp hdecoded
        exact everywhere_of_decode? hP hP.hereditary.source (hT.json htree) hdecoded
      | yaml =>
        obtain ⟨node, -, hdecoded⟩ := Option.bind_eq_some_iff.mp hdecoded
        have hsource : Source.IsHereditary (fun _ : Yaml.Node => True) T :=
          { field := fun _ _ _ => trivial
            entry := fun _ _ _ => trivial
            tree := fun htree _ => by
              cases htree
              exact hT.yaml _ }
        exact everywhere_of_decode? hP hsource trivial hdecoded
    · cases h

/-! ## Sets of documents -/

section

variable {D : Document → Prop}

theorem DocumentSet.forall_documents_insert {set : DocumentSet} {key : String}
    {document : Document} (h : ∀ other ∈ set.documents, D other) (hdocument : D document) :
    ∀ other ∈ DocumentSet.documents { set with external := set.external.insert key document },
      D other := by
  intro other hother
  rcases List.mem_cons.mp hother with rfl | hother
  · exact h _ List.mem_cons_self
  · obtain ⟨entry, hentry, rfl⟩ := List.mem_map.mp hother
    rcases Dictionary.mem_of_mem_insert hentry with rfl | hentry
    · exact hdocument
    · exact h _ (List.mem_cons_of_mem _ (List.mem_map_of_mem hentry))

namespace Gathering

variable {ε : Type} {read : String → Except ε Document} {state : Gathering ε}

theorem forall_documents_step (hread : ∀ key document, read key = .ok document → D document)
    (h : ∀ other ∈ state.set.documents, D other) (key : String) :
    ∀ other ∈ (state.step read key).set.documents, D other := by
  rw [step]
  split
  · exact h
  · dsimp only
    split
    · rename_i document hdocument
      exact DocumentSet.forall_documents_insert h (hread key document hdocument)
    · exact h

theorem forall_documents_round (hread : ∀ key document, read key = .ok document → D document)
    (h : ∀ other ∈ state.set.documents, D other) :
    ∀ other ∈ (state.round read).set.documents, D other := by
  rw [round]
  generalize state.set.missing = keys
  induction keys generalizing state with
  | nil => exact h
  | cons key rest ih => exact ih (forall_documents_step hread h key)

/-- What holds of the documents at hand and of all that can be read holds of all that are
gathered. -/
theorem forall_documents_after (hread : ∀ key document, read key = .ok document → D document)
    (h : ∀ other ∈ state.set.documents, D other) (n : Nat) :
    ∀ other ∈ (state.after read n).set.documents, D other := by
  induction n generalizing state with
  | zero => exact h
  | succ n ih =>
    rw [after]
    split
    · exact h
    · exact ih (forall_documents_round hread h)

end Gathering

theorem Document.of_load
    (hD : ∀ {format text document}, Document.read format text = .ok document → D document)
    {files : FileView} {path : String} {document : Document}
    (h : Document.load files path = .ok document) : D document := by
  rw [Document.load] at h
  split at h
  · exact hD h
  · cases h

/-- **What holds of all documents in texts holds of all documents in a loaded set.** -/
theorem DocumentSet.forall_documents_of_load
    (hD : ∀ {format text document}, Document.read format text = .ok document → D document)
    {files : FileView} {path : String} {set : DocumentSet}
    (h : (DocumentSet.load files path).2 = .ok set) : ∀ document ∈ set.documents, D document := by
  rw [load] at h
  split at h
  · cases h
  · rename_i main hmain
    obtain ⟨-, rfl⟩ := Gathering.result_eq_ok_iff.mp h
    refine Gathering.forall_documents_after (fun key document => Document.of_load hD) ?_ _
    intro document hdocument
    obtain rfl := List.mem_singleton.mp hdocument
    exact Document.of_load hD hmain

end

end PojoGraph
