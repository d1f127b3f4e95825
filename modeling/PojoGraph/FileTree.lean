import PojoGraph.Dictionary
import PojoGraph.Path

/-!
# Files

What a run knows of files is a view: the text behind each path, or why there is none. A tree of
files in memory gives one.

## Main definitions

* `FileFault`, `FileFault.message` — why a file cannot be read or written.
* `FileView` — the texts behind paths.
* `FileTree` — files in memory, with `read` and `write`.
-/

namespace PojoGraph

/-- Why a file cannot be read or written. -/
inductive FileFault where
  | notFound
  | notDirectory
  | isDirectory
  | notText
  /-- Any other reason, in the words of the system. -/
  | other (reason : String)
  deriving DecidableEq, Repr, Inhabited

namespace FileFault

/-- The text of a fault. -/
def message : FileFault → String
  | notFound => "No such file or directory (os error 2)"
  | notDirectory => "Not a directory (os error 20)"
  | isDirectory => "Is a directory (os error 21)"
  | notText => "stream did not contain valid UTF-8"
  | other reason => reason

/-- Whether there is nothing at the path. -/
def isAbsence : FileFault → Bool
  | notFound | notDirectory => true
  | _ => false

end FileFault

/-- The texts behind paths. -/
structure FileView where
  read : String → Except FileFault String
  /-- How many characters all texts have together: no chain of references between files without
  a repetition is longer. -/
  volume : Nat

namespace FileView

/-- Whether there is a file or a directory at a path. -/
def isPresent (files : FileView) (path : String) : Bool :=
  match files.read path with
  | .ok _ => true
  | .error fault => !fault.isAbsence

/-- The view of a list of paths; there is nothing elsewhere. -/
def ofList (known : List (String × Except FileFault String)) : FileView where
  read path := (known.lookup path).getD (.error .notFound)
  volume := (String.join (known.filterMap (·.2.toOption))).length

end FileView

/-- Files in memory, under the segments of their paths from the root. A directory is there when
it holds a file or the work is done in it. -/
structure FileTree where
  workingDirectory : List String := []
  files : List (List String × String) := []
  deriving Inhabited

namespace FileTree

/-- The text of the file at a place. -/
def text? (tree : FileTree) (place : List String) : Option String :=
  tree.files.lookup place

/-- Whether there is a directory at a place. -/
def isDirectory (tree : FileTree) (place : List String) : Bool :=
  place.isPrefixOf tree.workingDirectory
    || tree.files.any fun file => place.isPrefixOf file.1 && place != file.1

/-- The place that a segment leads to from another. -/
def enter (tree : FileTree) (place : List String) (segment : String) :
    Except FileFault (List String) :=
  if (tree.text? place).isSome then .error .notDirectory
  else if !tree.isDirectory place then .error .notFound
  else if segment == "" || segment == "." then .ok place
  else if segment == ".." then .ok place.dropLast
  else .ok (place ++ [segment])

/-- The place that a path leads to. Nothing needs to be there. -/
def locate (tree : FileTree) (path : String) : Except FileFault (List String) :=
  if path.isEmpty then .error .notFound
  else (Path.segments path).foldlM tree.enter
    (if Path.isAbsolute path then [] else tree.workingDirectory)

/-- The text of the file at a path. -/
def read (tree : FileTree) (path : String) : Except FileFault String := do
  let place ← tree.locate path
  match tree.text? place with
  | some text => .ok text
  | none => .error (if tree.isDirectory place then .isDirectory else .notFound)

/-- Puts a text at a place. -/
def put (tree : FileTree) (place : List String) (text : String) : FileTree :=
  { tree with files := (place, text) :: tree.files.filter (·.1 != place) }

/-- Writes a file. Its directory has to be there. -/
def write (tree : FileTree) (path text : String) : Except FileFault FileTree := do
  let place ← tree.locate (String.ofList (Text.dropWhileEnd (· == '/') path.toList))
  if path.toList.getLast? == some '/' || tree.isDirectory place then .error .isDirectory
  else .ok (tree.put place text)

/-- The tree as a view. -/
def view (tree : FileTree) : FileView where
  read := tree.read
  volume := (String.join (tree.files.map (·.2))).length

/-- A file that has been put at a place is there. -/
@[simp] theorem text?_put (tree : FileTree) (place : List String) (text : String) :
    (tree.put place text).text? place = some text := by
  simp [put, text?]

end FileTree

end PojoGraph
