import PojoGraph.Document.Read

/-!
# Documents in files

## Main definitions

* `Document.load` — the document in a file.
* `Gathering.result` — what reading the documents around it comes to.
* `DocumentSet.load` — that document with all documents it refers to.
-/

namespace PojoGraph

/-- The document in a file. -/
def Document.load (files : FileView) (path : String) : Except ParseError Document :=
  match files.read path with
  | .ok text => Document.read (Format.ofPath path) text
  | .error fault => .error (.unreadable path fault)

namespace Gathering

/-- What reading the documents that others refer to comes to. -/
def result (gathering : Gathering ParseError) : Except ParseError DocumentSet :=
  match gathering.failure with
  | some failure => .error (.referenced failure.document failure.cause)
  | none => .ok gathering.set

variable {gathering : Gathering ParseError}

theorem result_eq_ok_iff {set : DocumentSet} :
    gathering.result = .ok set ↔ gathering.failure = none ∧ gathering.set = set := by
  rw [result]
  cases gathering.failure <;> simp

theorem result_eq_error_iff {error : ParseError} : gathering.result = .error error
    ↔ ∃ failure, gathering.failure = some failure
      ∧ error = .referenced failure.document failure.cause := by
  rw [result]
  cases gathering.failure <;> simp [eq_comm]

end Gathering

namespace DocumentSet

/-- The reading of the documents that a main document refers to: their paths are relative to the
directory of the main one. Each round but the last finds a new reference in some text, so there
are no more rounds than characters. -/
def gather (files : FileView) (path : String) (main : Document) : Gathering ParseError :=
  Gathering.after (fun document => Document.load files (Path.join (Path.parent path) document))
    ⟨⟨main, some (Path.fileName path), []⟩, [], none⟩ (files.volume + 1)

/-- The document in a file with all documents it refers to. -/
def load (files : FileView) (path : String) : List LogLine × Except ParseError DocumentSet :=
  match Document.load files path with
  | .error error => ([], .error error)
  | .ok main =>
    let gathering := gather files path main
    (gathering.log, gathering.result)

end DocumentSet

end PojoGraph
