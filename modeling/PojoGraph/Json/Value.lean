import PojoGraph.Number

/-!
# JSON values

A JSON value is a tree; the fields of an object are listed in order. A `Tree` is what a reader
finds in a document: the same, except that keys may be of any kind, and that some places cannot
be read although the document as a whole is well formed.

## Main definitions

* `Json` — values.
* `Tree` — what a document holds.
* `Json.tree` — a value as the document that would hold it.
* `Tree.json?` — the value in a tree, the fields of its objects sorted by key.
-/

namespace PojoGraph

/-- A JSON value. -/
inductive Json where
  | null
  | bool (value : Bool)
  | number (value : Number)
  | string (value : String)
  | array (items : List Json)
  | object (fields : List (String × Json))
  deriving Inhabited

/-- What a reader finds in a document. -/
inductive Tree where
  /-- A place that is well formed but denotes nothing: a number that no double holds, half a
  surrogate pair, too deep a nesting. It matters only to those who look at it. -/
  | unreadable
  | null
  | bool (value : Bool)
  | number (value : Number)
  | text (value : String)
  | sequence (items : List Tree)
  | mapping (entries : List (Tree × Tree))
  deriving Inhabited

namespace Json

/-- Whether the value is null. -/
def isNull : Json → Bool
  | null => true
  | _ => false

/-- The text of a string. -/
def string? : Json → Option String
  | string value => some value
  | _ => none

mutual

/-- The value as the document that would hold it. -/
def tree : Json → Tree
  | null => .null
  | bool value => .bool value
  | number value => .number value
  | string value => .text value
  | array items => .sequence (treeItems items)
  | object fields => .mapping (treeFields fields)

/-- The items of an array as those of a sequence. -/
def treeItems : List Json → List Tree
  | [] => []
  | item :: rest => item.tree :: treeItems rest

/-- The fields of an object as the entries of a mapping. -/
def treeFields : List (String × Json) → List (Tree × Tree)
  | [] => []
  | (key, value) :: rest => (.text key, value.tree) :: treeFields rest

end

/-- Inserts a field into fields sorted by key; a field of the same key is replaced. -/
def insertSorted (key : String) (value : Json) : List (String × Json) → List (String × Json)
  | [] => [(key, value)]
  | (k, v) :: rest =>
    if key < k then (key, value) :: (k, v) :: rest
    else if k = key then (key, value) :: rest
    else (k, v) :: insertSorted key value rest

/-- The object with the given fields, sorted by key; of two fields with one key the later
counts. -/
def sortedObject (fields : List (String × Json)) : Json :=
  object (fields.foldl (fun sorted field => insertSorted field.1 field.2 sorted) [])

theorem treeItems_eq (items : List Json) : treeItems items = items.map tree := by
  induction items with
  | nil => rfl
  | cons item rest ih => simp [treeItems, ih]

theorem treeFields_eq (fields : List (String × Json)) :
    treeFields fields = fields.map fun field => (.text field.1, field.2.tree) := by
  induction fields with
  | nil => rfl
  | cons field rest ih => simp [treeFields, ih]

end Json

namespace Tree

mutual

/-- The value in a tree: all keys are texts and nothing is unreadable. A number that is not
finite becomes null. -/
def json? : Tree → Option Json
  | unreadable => none
  | null => some .null
  | bool value => some (.bool value)
  | number value => some (if value.isFinite then .number value else .null)
  | text value => some (.string value)
  | sequence items => (jsonItems? items).map .array
  | mapping entries => (jsonFields? entries).map Json.sortedObject

/-- The values in a list of trees. -/
def jsonItems? : List Tree → Option (List Json)
  | [] => some []
  | item :: rest => do
    let value ← item.json?
    let values ← jsonItems? rest
    some (value :: values)

/-- The fields in a list of entries, in the order in which they are written. -/
def jsonFields? : List (Tree × Tree) → Option (List (String × Json))
  | [] => some []
  | (.text key, item) :: rest => do
    let value ← item.json?
    let fields ← jsonFields? rest
    some ((key, value) :: fields)
  | _ :: _ => none

end

end Tree

end PojoGraph
