import PojoGraph.Identifier
import PojoGraph.Text.Edit

/-!
# Names of generated types

A generated type is known by the schema key it comes from and the suffix of the run. Names are
written as type identifiers and compared by their `key`, in which case does not count.

## Main definitions

* `PojoName` — a schema key with a suffix.
* `PojoName.text`, `PojoName.key` — the written form, and the form that identifies the type.
* `PojoName.append`, `PojoName.ofMember` — names of schemas nested under a named one.
* `PojoName.replace` — replacement of a constant part of the schema key.
-/

namespace PojoGraph

open Text

/-- The name of a generated type: a schema key, spelled as in the document, and a suffix. -/
structure PojoName where
  raw : String
  suffix : String := ""
  deriving DecidableEq, Repr, Inhabited

namespace PojoName

/-- The name as generated code spells it. -/
def text (name : PojoName) : String :=
  typeIdentifier name.raw ++ name.suffix

instance : ToString PojoName := ⟨text⟩

/-- What identifies the type: two names with one key are the same name. -/
def key (name : PojoName) : String :=
  lower name.text

/-- Whether two names denote the same type. -/
def isSame (a b : PojoName) : Bool :=
  a.key == b.key

/-- The name with `tail` after its type identifier, the suffix kept last. -/
def append (name : PojoName) (tail : String) : PojoName :=
  { name with raw := typeIdentifier name.raw ++ tail }

/-- The name of an inline schema that stands at the member `member`. -/
def ofMember (name : PojoName) (member : String) : PojoName :=
  name.append (typeIdentifier member)

/-- The name with `number` after its schema key. -/
def numbered (name : PojoName) (number : Nat) : PojoName :=
  { name with raw := name.raw ++ toString number }

/-- The name with each occurrence of `constant` in its schema key replaced. An empty constant
replaces nothing. -/
def replace (name : PojoName) (constant replacement : String) : PojoName :=
  if constant.isEmpty then name else { name with raw := replaceAll constant replacement name.raw }

@[simp] theorem suffix_append (name : PojoName) (tail : String) :
    (name.append tail).suffix = name.suffix := rfl

@[simp] theorem suffix_numbered (name : PojoName) (number : Nat) :
    (name.numbered number).suffix = name.suffix := rfl

@[simp] theorem suffix_replace (name : PojoName) (constant replacement : String) :
    (name.replace constant replacement).suffix = name.suffix := by
  unfold replace; split <;> rfl

@[simp] theorem isSame_iff {a b : PojoName} : a.isSame b ↔ a.key = b.key := by
  simp [isSame]

end PojoName

end PojoGraph
