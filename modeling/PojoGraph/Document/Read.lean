import PojoGraph.Document.Set
import PojoGraph.FileTree
import PojoGraph.Json.Reader
import PojoGraph.Yaml.Core

/-!
# Documents in texts

## Main definitions

* `Format` — the formats of documents, and how they are told apart.
* `ParseError`, with `message` and `chain` — why a document cannot be had.
* `Document.read` — the document in a text.
-/

namespace PojoGraph

/-- The formats of documents. -/
inductive Format where
  | json
  | yaml
  deriving DecidableEq, Repr, Inhabited

namespace Format

/-- The format of a text: a document that begins with a brace is JSON. -/
def ofText (text : String) : Format :=
  if (text.toList.dropWhile Text.isBlank).head? == some '\x7b' then .json else .yaml

/-- The format of a file: one whose name ends in `.json` is JSON. -/
def ofPath (path : String) : Format :=
  if Path.extension? (Path.fileName path) == some "json" then .json else .yaml

end Format

/-- Why a document cannot be had. -/
inductive ParseError where
  /-- A text that is no document in its format. -/
  | malformed (format : Format)
  | unsupportedVersion (version : String)
  | unreadable (path : String) (fault : FileFault)
  /-- A document that a reference leads to. -/
  | referenced (document : String) (cause : ParseError)
  deriving DecidableEq, Repr, Inhabited

namespace ParseError

/-- What is said of a text that is no document. -/
def malformedText : String :=
  "the text is no document"

/-- The text of an error. -/
def message : ParseError → String
  | malformed .yaml => "failed to parse YAML: " ++ malformedText
  | malformed .json => "failed to parse JSON: " ++ malformedText
  | unsupportedVersion version => "unsupported OpenAPI version: " ++ version
  | unreadable path fault => "failed to read " ++ path ++ ": " ++ fault.message
  | referenced document cause => "in referenced document " ++ document ++ ": " ++ cause.message

/-- The texts of an error and of what caused it. -/
def chain : ParseError → List String
  | malformed format => [(malformed format).message, malformedText]
  | unsupportedVersion version => [(unsupportedVersion version).message]
  | unreadable path fault => [(unreadable path fault).message, fault.message]
  | referenced document cause => (referenced document cause).message :: cause.chain

end ParseError

namespace Document

/-- The document in a text, in whatever version. -/
def decodeText? (format : Format) (text : String) : Option Document :=
  match format with
  | .json => (Json.read? text).bind Document.decode?
  | .yaml => (Yaml.Node.read? text).bind Document.decode?

/-- The document in a text. Only versions that begin with `3.` are supported. -/
def read (format : Format) (text : String) : Except ParseError Document :=
  match decodeText? format text with
  | none => .error (.malformed format)
  | some document =>
    if "3.".toList.isPrefixOf document.openapi.toList then .ok document
    else .error (.unsupportedVersion document.openapi)

end Document

end PojoGraph
