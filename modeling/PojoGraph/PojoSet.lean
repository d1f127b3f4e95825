import PojoGraph.Exclusion
import PojoGraph.Pojo.Revision
import PojoGraph.Resolution

/-!
# Sets of generated types

Resolved schemas become the final set in four steps. Plain types are put in place of references
to them or kept under their names, descriptions are passed on to the members that refer to a
described type, references to types that do not exist are reported, and names are mapped.

## Main definitions

* `PojoSet` — generated types with the warnings of their run.
* `Replacement.ofPlains` — what references to plain types are replaced by.
* `danglingReferences` — the references to types that do not exist.
* `PojoSet.ofEntries` — the four steps together.
-/

namespace PojoGraph

/-- Generated types, and what a run has to warn of. -/
structure PojoSet where
  pojos : List Pojo
  warnings : List Warning := []
  deriving Inhabited

/-! ## Plain types -/

/-- The plain types among resolved schemas. -/
def plainMembers (entries : List Resolved) : List PlainMember :=
  entries.filterMap fun
    | .plain plain => some plain
    | .pojo _ => none

/-- The plain type that a type is a reference to. -/
def plainTarget? (plains : List PlainMember) (type : DataType) : Option PlainMember :=
  type.objectName?.bind fun target => plains.find? (·.name.isSame target)

/-- The type that is left when references to plain types are followed, at most `steps` times. -/
def finalTypeFrom (plains : List PlainMember) : (steps : Nat) → DataType → Option DataType
  | 0, _ => none
  | steps + 1, type =>
    match plainTarget? plains type with
    | none => some type
    | some next => finalTypeFrom plains steps next.type

/-- The type that a plain type stands for. There is none if its references go round in a
circle, which they do if they are followed more often than there are plain types. -/
def PlainMember.finalType? (plains : List PlainMember) (plain : PlainMember) : Option DataType :=
  finalTypeFrom plains plains.length plain.type

/-- What references to the plain types are replaced by, in their order. -/
def Replacement.ofPlains (plains : List PlainMember) : List Replacement :=
  plains.filterMap fun plain =>
    (plain.finalType? plains).map fun type =>
      { name := plain.name, description := plain.description, type }

/-- The plain types that cannot be put in place of references. -/
def cyclicPlains (plains : List PlainMember) : List PlainMember :=
  plains.filter fun plain => (plain.finalType? plains).isNone

/-- The pojos with plain types put in place of references to them. Plain types that refer to each
other in a circle are kept. -/
def inlinePlains (entries : List Resolved) : PojoSet :=
  let plains := plainMembers entries
  let replacements := Replacement.ofPlains plains
  let kept := entries.filterMap fun
    | .pojo pojo => some pojo
    | .plain plain => if (plain.finalType? plains).isNone then some plain.toAlias else none
  { pojos := kept.map fun pojo =>
      replacements.foldl (fun pojo replacement => pojo.substitute replacement) pojo
    warnings := (cyclicPlains plains).map fun plain => .cyclicAlias plain.name }

/-- The pojos with all plain types kept under their names. -/
def keepPlains (entries : List Resolved) : PojoSet :=
  { pojos := entries.map fun
      | .pojo pojo => pojo
      | .plain plain => plain.toAlias }

/-! ## Descriptions -/

/-- The described types among pojos. -/
def describedTypes (pojos : List Pojo) : List Described :=
  pojos.filterMap fun pojo => pojo.description.map (⟨pojo.name, ·⟩)

/-- The pojos with the descriptions of types passed on to the members that are references to
them. -/
def attachDescriptions (pojos : List Pojo) : List Pojo :=
  pojos.map fun pojo => (describedTypes pojos).foldl (fun pojo described => pojo.describe described)
    pojo

/-! ## References to types that do not exist -/

/-- The names of a list, each key once. -/
def distinctNames : (seen : List String) → List PojoName → List PojoName
  | _, [] => []
  | seen, name :: rest =>
    if name.key ∈ seen then distinctNames seen rest
    else name :: distinctNames (name.key :: seen) rest

/-- The references of each pojo to types that are neither in the set nor excluded, each once a
pojo. -/
def danglingReferences (exclusion : Exclusion) (pojos : List Pojo) : List Warning :=
  let defined := pojos.map (·.name.key)
  pojos.flatMap fun pojo =>
    (distinctNames [] (pojo.references.filter fun name =>
      !defined.contains name.key && !exclusion.excludes name.raw)).map
        (.danglingReference pojo.name)

/-! ## The final set -/

namespace PojoSet

/-- Puts plain types in place of references, or keeps them. -/
def ofResolved (inlining : ReferenceInlining) (entries : List Resolved) : PojoSet :=
  match inlining with
  | .simple => inlinePlains entries
  | .never => keepPlains entries

/-- Passes descriptions on. -/
def describe (set : PojoSet) : PojoSet :=
  { set with pojos := attachDescriptions set.pojos }

/-- Reports dangling references. -/
def checkReferences (exclusion : Exclusion) (set : PojoSet) : PojoSet :=
  { set with warnings := set.warnings ++ danglingReferences exclusion set.pojos }

/-- Renames all types. -/
def rename (f : PojoName → PojoName) (set : PojoSet) : PojoSet :=
  { set with pojos := set.pojos.map (·.rename f) }

/-- The final set of resolved schemas. -/
def ofEntries (settings : Settings) (exclusion : Exclusion) (entries : List Resolved) : PojoSet :=
  (((ofResolved settings.referenceInlining entries).describe).checkReferences exclusion).rename
    settings.mapName

end PojoSet

end PojoGraph
