import PojoGraph.Document.Basic
import PojoGraph.Schema.Decode

/-!
# Reading documents

The outer levels of a document are read by the rules of its format, which differ in what counts
as text and in whether the fields of a record may be listed without names. `Source` gathers
these rules; the schemas inside are read from trees, whatever the format.

## Main definitions

* `Source` — what a format says about texts, absent values, records and mappings.
* `Document.decode?` — the document in a source.
-/

namespace PojoGraph

/-- What a format says about the places of a document. -/
class Source (τ : Type) where
  /-- The text at a place where one is required. -/
  text? : τ → Option String
  /-- Whether an optional value is absent although its field is given. -/
  isAbsent : τ → Bool
  /-- The values of a record's fields, each at most once. A record may be allowed to list the
  values without names; at least the given number of them is then required. -/
  fields? : (names : List String) → (least : Nat) → τ → Option (List (Option τ))
  /-- The entries of a mapping from texts. -/
  entries? : τ → Option (List (String × τ))
  /-- The tree at a place. -/
  tree? : τ → Option Tree

/-- Fields listed without names are allowed, and only texts are texts. -/
instance : Source Tree where
  text? := Tree.text?
  isAbsent
    | .null => true
    | _ => false
  fields? names least tree :=
    match tree with
    | .sequence items => if items.length < least then none else tree.fields? names
    | _ => tree.fields? names
  entries?
    | .mapping entries => entries.mapM fun (entry : Tree × Tree) => do
        some ((← entry.1.text?), entry.2)
    | _ => none
  tree? tree := some tree

namespace Source

variable {τ α : Type} [Source τ]

/-- The value of an optional field that is given or not. -/
def optional? (read : τ → Option α) : Option τ → Option (Option α)
  | none => some none
  | some source => if isAbsent source then some none else (read source).map some

/-- The schema at a place. -/
def schema? (source : τ) : Option Schema :=
  (tree? source).bind Schema.decode?

/-- The named schemas at a place. Of two with one name the later counts. -/
def schemas? (source : τ) : Option (Dictionary Schema) := do
  let entries ← entries? source
  let schemas ← entries.mapM fun (entry : String × τ) => do
    some (entry.1, (← schema? entry.2))
  some (Dictionary.ofEntries schemas)

end Source

open Source

variable {τ : Type} [Source τ]

/-- The description of an API at a place. -/
def Info.decode? (source : τ) : Option Info := do
  match ← fields? ["title", "description", "version"] 3 source with
  | [some title, description, some version] =>
    some {
      title := ← text? title
      description := ← optional? text? description
      version := ← text? version }
  | _ => none

/-- The reusable parts at a place. -/
def Components.decode? (source : τ) : Option Components := do
  match ← fields? ["schemas"] 0 source with
  | [some schemas] => some { schemas := ← schemas? schemas }
  | [none] => some {}
  | _ => none

/-- The document at a place. -/
def Document.decode? (source : τ) : Option Document := do
  match ← fields? ["openapi", "info", "components"] 3 source with
  | [some openapi, some info, components] =>
    some {
      openapi := ← text? openapi
      info := ← Info.decode? info
      components := ← optional? Components.decode? components }
  | _ => none

end PojoGraph
