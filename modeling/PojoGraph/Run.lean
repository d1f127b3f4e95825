import PojoGraph.Document.Set
import PojoGraph.PojoSet

/-!
# Runs

A run turns the named schemas of some documents, less the excluded ones, into generated types.
Before it begins, references into documents outside the run and names that two schemas share are
refused.

## Main definitions

* `unloadedReferences`, `claimRoots` — what is checked before a run.
* `RunError` — why a run may fail.
* `mapDocuments`, `mapDocument`, `mapDocumentSet` — runs.
-/

namespace PojoGraph

/-! ## Before a run -/

/-- The references of schemas into documents outside a run, each once. -/
def unloadedReferences (isLoaded : String → Bool) (schemas : List (String × Schema)) :
    List Fault :=
  ((schemas.flatMap (·.2.references)).filterMap fun reference =>
    match refFile reference with
    | some document => if isLoaded document then none else some (.unloadedDocument reference document)
    | none => none).eraseDups

/-- The schemas of a run under the names claimed for them. -/
structure Roots where
  registry : Registry := {}
  pending : List Pending := []
  /-- The schema keys by the keys of their names. -/
  declared : Dictionary String := []
  faults : List Fault := []
  deriving Inhabited

/-- Claims the name of one more schema, unless a schema before has it. -/
def Roots.declare (settings : Settings) (roots : Roots) (schema : String × Schema) : Roots :=
  let name := settings.pojoName schema.1
  match roots.declared.lookup? name.key with
  | some first =>
    { roots with faults := roots.faults ++ [.duplicateTypeName first schema.1 name] }
  | none =>
    let claimed := roots.registry.claim name
    { roots with
      registry := claimed.2
      pending := roots.pending ++ [⟨claimed.1, schema.2⟩]
      declared := roots.declared ++ [(name.key, schema.1)] }

/-- The schemas of a run under the names claimed for them. -/
def claimRoots (settings : Settings) (schemas : List (String × Schema)) : Roots :=
  schemas.foldl (Roots.declare settings) {}

/-! ## Runs -/

/-- Why a run fails. -/
inductive RunError where
  | invalidPattern (error : InvalidPattern)
  | failure (failure : Failure)
  deriving DecidableEq, Repr

/-- Resolves schemas under claimed names and makes the final set of them. -/
def mapPending (settings : Settings) (exclusion : Exclusion) (registry : Registry)
    (pending : List Pending) : List LogLine × Except Failure PojoSet :=
  let (log, result) := resolve settings registry pending
  (log, result.map fun resolution =>
    let set := PojoSet.ofEntries settings exclusion resolution.entries
    { set with warnings := resolution.warnings ++ set.warnings })

/-- The schemas of documents that an exclusion leaves. -/
def includedSchemas (exclusion : Exclusion) (documents : List Document) : List (String × Schema) :=
  (documents.flatMap (·.schemas)).filter fun entry => !exclusion.excludes entry.1

/-- What a run logs at its end. -/
def summaryLog (documents : List Document) (roots : List Pending) (set : PojoSet) : List LogLine :=
  set.warnings.map .warning ++
    [.mapped roots.length (documents.flatMap (·.schemas)).length documents.length
      set.pojos.length set.warnings.length]

/-- The generated types of the schemas of some documents. The log is kept also where the run
fails. -/
def mapDocuments (settings : Settings) (isLoaded : String → Bool) (documents : List Document) :
    List LogLine × Except RunError PojoSet :=
  match Exclusion.ofPatterns settings.excludedSchemas with
  | .error error => ([], .error (.invalidPattern error))
  | .ok exclusion =>
    let schemas := includedSchemas exclusion documents
    let roots := claimRoots settings schemas
    match Failure.of? (unloadedReferences isLoaded schemas ++ roots.faults) with
    | some failure => ([], .error (.failure failure))
    | none =>
      match mapPending settings exclusion roots.registry roots.pending with
      | (log, .ok set) => (log ++ summaryLog documents roots.pending set, .ok set)
      | (log, .error failure) => (log, .error (.failure failure))

/-- The generated types of one document, which may not refer to others. -/
def mapDocument (settings : Settings) (document : Document) :
    List LogLine × Except RunError PojoSet :=
  mapDocuments settings (fun _ => false) [document]

/-- The generated types of a set of documents. -/
def mapDocumentSet (settings : Settings) (set : DocumentSet) :
    List LogLine × Except RunError PojoSet :=
  mapDocuments settings set.isLoaded set.documents

end PojoGraph
