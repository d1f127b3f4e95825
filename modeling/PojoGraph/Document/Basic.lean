import PojoGraph.Schema.Encode

/-!
# API documents

Of an API document only its title, its version and its named schemas matter here.

## Main definitions

* `Document` — a document.
* `Document.schemas` — its named schemas in order.
* `Document.encode` — the document as a JSON value.
* `Document.ofSchemas` — a document around given schemas.
-/

namespace PojoGraph

/-- The description of an API. -/
structure Info where
  title : String
  description : Option String := none
  version : String
  deriving DecidableEq, Repr, Inhabited

/-- The reusable parts of a document, of which only schemas are kept. -/
structure Components where
  schemas : Dictionary Schema := []
  deriving Inhabited

/-- An API document. -/
structure Document where
  /-- The version of the specification that the document follows. -/
  openapi : String
  info : Info
  components : Option Components := none
  deriving Inhabited

namespace Document

/-- The named schemas in order. -/
def schemas (document : Document) : Dictionary Schema :=
  match document.components with
  | some components => components.schemas
  | none => []

/-- A document around given schemas. -/
def ofSchemas (schemas : Dictionary Schema) : Document where
  openapi := "3.0.3"
  info := { title := "Untitled", version := "0.0.0" }
  components := some { schemas }

/-- The references of all schemas, in order. -/
def references (document : Document) : List String :=
  document.schemas.flatMap (·.2.references)

/-- The document as a JSON value. -/
def encode (document : Document) : Json :=
  .object <| [
    some ("openapi", .string document.openapi),
    some ("info", .object <| [
      some ("title", .string document.info.title),
      document.info.description.map fun description => ("description", .string description),
      some ("version", .string document.info.version)].filterMap id),
    document.components.map fun components => ("components", .object <| [
      (Json.ofFields? (components.schemas.map fun entry => (entry.1, entry.2.encode))).map
        fun schemas => ("schemas", schemas)].filterMap id)].filterMap id

end Document

end PojoGraph
