import PojoGraph.Text.Edit

/-!
# Paths

A path is a text of segments with slashes between them. Nothing is looked up here.

## Main definitions

* `Path.fileName`, `Path.extension?` — the last segment, and what stands behind its last dot.
* `Path.parent` — the directory of a file.
* `Path.join` — a path relative to a directory.
-/

namespace PojoGraph.Path

/-- The segments of a path, empty ones included. -/
def segments (path : String) : List String :=
  (path.toList.splitOnP (· == '/')).map String.ofList

/-- Whether a path begins at the root. -/
def isAbsolute (path : String) : Bool :=
  path.toList.head? == some '/'

/-- The last segment of a path. -/
def fileName (path : String) : String :=
  String.ofList (Text.afterLast '/' path.toList)

/-- The extension of a file name: what stands behind the last dot, unless the dot comes first. -/
def extension? (name : String) : Option String :=
  match name.toList.reverse.span (· != '.') with
  | (_, [_]) => none
  | (extension, _ :: _) => some (String.ofList extension.reverse)
  | (_, []) => none

/-- A reversed path without the slashes and the segments `.` at its end, unless it is nothing but
one such segment. -/
def trimReversed : List Char → List Char
  | '/' :: rest => trimReversed rest
  | '.' :: '/' :: rest => trimReversed rest
  | cs => cs

/-- The directory of a file; the text is empty where the path is just a name. -/
def parent (path : String) : String :=
  match (path.toList.reverse.dropWhile (· != '/')) with
  | [] => ""
  | _ :: before =>
    let directory := String.ofList (trimReversed before).reverse
    if directory.isEmpty && isAbsolute path then "/" else directory

/-- A path relative to a directory. An absolute path does not depend on the directory. -/
def join (directory path : String) : String :=
  if isAbsolute path || directory.isEmpty then path
  else if directory.toList.getLast? == some '/' then directory ++ path
  else directory ++ "/" ++ path

end PojoGraph.Path
