import PojoGraph.Document.Basic
import PojoGraph.Log
import PojoGraph.Schema.Query

/-!
# Sets of documents

References may point into other documents, which then belong to the run. A document is known by
the path that references give it, relative to the main document and without leading `./`. The
documents that are missing from a set are read round by round, until no reference leads out of
the set.

## Main definitions

* `DocumentSet` — a main document with the documents it refers to.
* `DocumentSet.missing` — the documents that references lead to and that are not in the set.
* `Gathering` — the state between two rounds of reading.
* `Gathering.round`, `Gathering.after` — one round, and several.
-/

namespace PojoGraph

/-- The key of a document: its path without leading `./`. -/
def documentKey (path : String) : String :=
  String.ofList (strip path.toList)
where
  /-- A path without leading `./`. -/
  strip : List Char → List Char
    | '.' :: '/' :: rest => strip rest
    | cs => cs

/-- The keys of the documents that the references of a document lead to, in order. -/
def Document.referencedDocuments (document : Document) : List String :=
  (document.references.filterMap refFile).map documentKey

/-- A main document with the documents it refers to. -/
structure DocumentSet where
  main : Document
  /-- The name of the main document: references to it lead back. -/
  mainName : Option String
  /-- The other documents by their keys, in the order in which they were read. -/
  external : Dictionary Document := []
  deriving Inhabited

namespace DocumentSet

/-- All documents, the main one first. -/
def documents (set : DocumentSet) : List Document :=
  set.main :: set.external.map (·.2)

/-- Whether the document of a key is in the set. -/
def hasKey (set : DocumentSet) (key : String) : Bool :=
  set.mainName == some key || set.external.contains key

/-- Whether the document at a path is in the set. -/
def isLoaded (set : DocumentSet) (path : String) : Bool :=
  set.hasKey (documentKey path)

/-- The keys of the documents that references lead to and that are not in the set, each once. -/
def missing (set : DocumentSet) : List String :=
  ((set.documents.flatMap (·.referencedDocuments)).filter (!set.hasKey ·)).eraseDups

/-- How many named schemas the documents have. -/
def schemaCount (set : DocumentSet) : Nat :=
  (set.documents.flatMap (·.schemas)).length

end DocumentSet

/-- The failure to read a document that a reference leads to. -/
structure GatheringError (ε : Type) where
  document : String
  cause : ε

/-- The state between two rounds: the set so far, the documents read in order, and the failure
that ended the reading. -/
structure Gathering (ε : Type) where
  set : DocumentSet
  reads : List String := []
  failure : Option (GatheringError ε) := none

namespace Gathering

variable {ε : Type} (read : String → Except ε Document)

/-- Reads one document, unless reading has ended. -/
def step (state : Gathering ε) (key : String) : Gathering ε :=
  if state.failure.isSome then state
  else
    let reads := state.reads ++ [key]
    match read key with
    | .ok document =>
      { state with
        set := { state.set with external := state.set.external.insert key document }
        reads }
    | .error cause => { state with reads, failure := some ⟨key, cause⟩ }

/-- Reads all documents that are missing from the set. -/
def round (state : Gathering ε) : Gathering ε :=
  state.set.missing.foldl (step read) state

/-- Whether a failure has ended the reading, or nothing is missing. -/
def isOver (state : Gathering ε) : Bool :=
  state.failure.isSome || state.set.missing.isEmpty

/-- The state after a number of rounds, or after as many as there are. -/
def after (state : Gathering ε) : Nat → Gathering ε
  | 0 => state
  | n + 1 => if state.isOver then state else after (state.round read) n

/-- What reading documents logs. -/
def log (state : Gathering ε) : List LogLine :=
  state.reads.map .loading

end Gathering

end PojoGraph
