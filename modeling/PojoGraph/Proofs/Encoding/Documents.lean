import PojoGraph.Proofs.Encoding.Schemas

/-!
# Documents read back

A well-formed document that is written as a JSON value is decoded from the tree that holds the
value, as it was. What is decoded depends on the schemas alone: the rest is read back in any case,
so that a document is decoded from a tree in which its schemas are written in some other way if and
only if they are.

## Main definitions

* `Document.treeWith` — a document as a tree, its schemas written in a given way.

## Main statements

* `Document.decode?_treeWith` — a document is read back where its schemas are.
* `Document.decode?_treeWith_eq_none` — it is not decoded where one of them is not.
* `Document.decode?_encode` — a well-formed document is decoded from its value.
-/

namespace PojoGraph

open Source

/-- Where nothing is read of one member, nothing is read of the list. -/
theorem mapM_eq_none_of_mem {α β : Type} {read : α → Option β} {as : List α} {a : α}
    (ha : a ∈ as) (h : read a = none) : as.mapM read = none := by
  induction as with
  | nil => cases ha
  | cons first rest ih =>
    rw [List.mapM_cons]
    rcases List.mem_cons.mp ha with rfl | ha
    · rw [h]
      rfl
    · rw [ih ha]
      cases read first <;> rfl

/-- The description of an API as a tree. -/
def Info.tree (info : Info) : Tree :=
  .mapping <| [
    some (.text "title", .text info.title),
    info.description.map fun description => (.text "description", .text description),
    some (.text "version", .text info.version)].filterMap id

/-- The document as a tree, with trees for its schemas. -/
def Document.treeWith (write : Schema → Tree) (document : Document) : Tree :=
  .mapping <| [
    some (.text "openapi", .text document.openapi),
    some (.text "info", document.info.tree),
    document.components.map fun components => (.text "components", .mapping <|
      if components.schemas.isEmpty then []
      else [(.text "schemas", .mapping (components.schemas.map fun entry =>
        (.text entry.1, write entry.2)))])].filterMap id

/-- The value of a document holds the values of its schemas. -/
theorem Document.tree_encode (document : Document) :
    document.encode.tree = document.treeWith (·.encode.tree) := by
  obtain ⟨openapi, ⟨title, description, version⟩, components⟩ := document
  cases description <;> rcases components with _ | ⟨_ | ⟨entry, rest⟩⟩ <;>
    simp [encode, treeWith, Info.tree, Json.ofFields?, Json.tree, Json.treeFields,
      Json.treeFields_eq]

/-- The description of an API is read back. -/
theorem Info.decode?_tree (info : Info) : Info.decode? info.tree = some info := by
  obtain ⟨title, _ | description, version⟩ := info <;> rfl

section

variable {write : Schema → Tree}

/-- Schemas are looked for under the names under which they are written. -/
theorem schemas?_mapping (schemas : Dictionary Schema) :
    schemas? (Tree.mapping (schemas.map fun entry => (.text entry.1, write entry.2)))
      = (schemas.mapM fun entry =>
          (Schema.decode? (write entry.2)).bind fun schema => some (entry.1, schema)).bind
            fun decoded => some (Dictionary.ofEntries decoded) := by
  have hentries : entries? (Tree.mapping (schemas.map fun entry => (.text entry.1, write entry.2)))
      = some (schemas.map fun entry => (entry.1, write entry.2)) :=
    List.mapM_map.trans List.mapM_pure
  rw [Source.schemas?, hentries, Option.bind_eq_bind, Option.bind_some, List.mapM_map]
  rfl

namespace Document

variable {document : Document} {openapi : String} {info : Info}

theorem decode?_treeWith_none :
    decode? (treeWith write ⟨openapi, info, none⟩) = some ⟨openapi, info, none⟩ := by
  obtain ⟨title, _ | description, version⟩ := info <;> rfl

theorem decode?_treeWith_some (schemas : Dictionary Schema) :
    decode? (treeWith write ⟨openapi, info, some ⟨schemas⟩⟩)
      = (schemas? (Tree.mapping (schemas.map fun entry => (.text entry.1, write entry.2)))).map
          fun schemas => ⟨openapi, info, some ⟨schemas⟩⟩ := by
  cases schemas with
  | nil => obtain ⟨title, _ | description, version⟩ := info <;> rfl
  | cons entry rest =>
    have hcomponents : ∀ place : Tree,
        optional? Components.decode? (some (Tree.mapping [(.text "schemas", place)]))
          = (schemas? place).map fun schemas => some ⟨schemas⟩ := by
      intro place
      show ((schemas? place).bind fun schemas => some (Components.mk schemas)).map some = _
      cases schemas? place <;> rfl
    have hdocument : ∀ place : Tree, decode? (Tree.mapping [
        (.text "openapi", .text openapi), (.text "info", info.tree),
        (.text "components", .mapping [(.text "schemas", place)])])
          = (schemas? place).map fun schemas => ⟨openapi, info, some ⟨schemas⟩⟩ := by
      intro place
      show (Info.decode? info.tree).bind (fun info =>
        (optional? Components.decode? (some (Tree.mapping [(.text "schemas", place)]))).bind
          fun components => some (Document.mk openapi info components)) = _
      rw [Info.decode?_tree, hcomponents]
      cases schemas? place <;> rfl
    exact hdocument _

/-- A document is read back where its schemas are. -/
theorem decode?_treeWith (hnames : (Dictionary.keys document.schemas).Nodup)
    (h : ∀ entry ∈ document.schemas, Schema.decode? (write entry.2) = some entry.2) :
    decode? (document.treeWith write) = some document := by
  obtain ⟨openapi, info, components⟩ := document
  cases components with
  | none => exact decode?_treeWith_none
  | some components =>
    have hread : components.schemas.mapM (fun entry =>
        (Schema.decode? (write entry.2)).bind fun schema => some (entry.1, schema))
          = some components.schemas := by
      refine mapM_of_forall fun entry hentry => ?_
      rw [h entry hentry]
      rfl
    have hnames : (Dictionary.keys components.schemas).Nodup := hnames
    rw [decode?_treeWith_some, schemas?_mapping, hread, Option.bind_some,
      Dictionary.ofEntries_of_nodup hnames]
    rfl

/-- A document is not decoded where one of its schemas is not. -/
theorem decode?_treeWith_eq_none {entry : String × Schema} (hentry : entry ∈ document.schemas)
    (h : Schema.decode? (write entry.2) = none) : decode? (document.treeWith write) = none := by
  obtain ⟨openapi, info, components⟩ := document
  cases components with
  | none => cases hentry
  | some components =>
    have hread : components.schemas.mapM (fun entry =>
        (Schema.decode? (write entry.2)).bind fun schema => some (entry.1, schema)) = none := by
      refine mapM_eq_none_of_mem hentry ?_
      rw [h]
      rfl
    rw [decode?_treeWith_some, schemas?_mapping, hread]
    rfl

/-- **A well-formed document is decoded from the value as which it is written.** -/
theorem decode?_encode (h : document.IsWellFormed) :
    decode? document.encode.tree = some document := by
  rw [tree_encode]
  exact decode?_treeWith h.names fun entry hentry =>
    Schema.decode?_encode (h.schemas entry hentry)

end Document

end

end PojoGraph
