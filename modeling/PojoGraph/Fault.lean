import PojoGraph.Pojo.Basic

/-!
# What can go wrong

A fault is a reason for which schemas cannot be turned into types. A stage reports all faults
it finds; a failure is a non-empty list of them.

## Main definitions

* `Fault`, `Fault.message` — the reasons and their texts.
* `Failure` — one or several faults.
-/

namespace PojoGraph

/-- What a branch of a composition leads to instead of an object. -/
inductive Obstacle where
  | cyclicReference
  | plainMember
  | array
  | enum
  | typeAlias
  deriving DecidableEq, Repr, Inhabited

/-- The word for an obstacle. -/
def Obstacle.text : Obstacle → String
  | cyclicReference => "cyclic reference"
  | plainMember => "plain member"
  | array => "array"
  | enum => "enum"
  | typeAlias => "alias"

/-- A composed type and the branches that keep it from being resolved. -/
structure Stuck where
  pojo : PojoName
  missing : List PojoName
  deriving DecidableEq, Repr, Inhabited

/-- A reason for which schemas cannot be turned into types. -/
inductive Fault where
  /-- Compositions whose branches are not defined or wait for each other. -/
  | unresolvable (stuck : List Stuck)
  /-- A member that an object gets twice. -/
  | ambiguousMember (pojo : PojoName) (member : String)
  /-- A branch that is no object. -/
  | invalidBranch (pojo : PojoName) (kind : CompositionKind) (branch : PojoName)
      (obstacle : Obstacle)
  /-- A discriminator value that selects something other than a branch. -/
  | invalidMapping (pojo : PojoName) (value : String) (target : PojoName)
  /-- Values of an enum that lack a description where all must have one. -/
  | incompleteEnum (pojo : PojoName) (missing : List String)
  /-- Two schemas with the same type name. -/
  | duplicateTypeName (first second : String) (name : PojoName)
  /-- A reference into a document that is not part of the run. -/
  | unloadedDocument (reference document : String)
  /-- Schemas that keep giving rise to further schemas. -/
  | endless (pending : List PojoName)
  deriving DecidableEq, Repr, Inhabited

namespace Fault

/-- The text of a fault. -/
def message : Fault → String
  | unresolvable stuck =>
    "unresolvable references: " ++ Text.joinWith "; " (stuck.map fun s =>
      s.pojo.text ++ " -> [" ++ Text.joinWith ", " (s.missing.map (·.text)) ++ "]")
  | ambiguousMember pojo member =>
    "ambiguous member '" ++ member ++ "' in allOf of " ++ pojo.text
  | invalidBranch pojo kind branch obstacle =>
    kind.keyword ++ " member " ++ branch.text ++ " of " ++ pojo.text ++ " is a "
      ++ obstacle.text ++ " pojo, expected an object"
  | invalidMapping pojo value target =>
    "discriminator mapping '" ++ value ++ "' of " ++ pojo.text ++ " targets " ++ target.text
      ++ ", which is not a branch"
  | incompleteEnum pojo missing =>
    "enum " ++ pojo.text ++ " has no description for: " ++ Text.joinWith ", " missing
  | duplicateTypeName first second name =>
    "schemas '" ++ first ++ "' and '" ++ second ++ "' both map to type name " ++ name.text
  | unloadedDocument reference document =>
    reference ++ " points into " ++ document ++ ", which was not loaded"
  | endless pending =>
    "endless schemas: " ++ Text.joinWith ", " (pending.map (·.text))

end Fault

/-- One or several faults, in the order in which they were found. -/
structure Failure where
  first : Fault
  others : List Fault := []
  deriving DecidableEq, Repr, Inhabited

namespace Failure

/-- The failure that a list of faults amounts to; none if the list is empty. -/
def of? : List Fault → Option Failure
  | [] => none
  | first :: others => some ⟨first, others⟩

/-- All faults of a failure. -/
def faults (failure : Failure) : List Fault :=
  failure.first :: failure.others

/-- The text of the fault, or of all faults, one a line. -/
def message (failure : Failure) : String :=
  if failure.others.isEmpty then failure.first.message
  else toString failure.faults.length ++ " errors:\n  "
    ++ Text.joinWith "\n  " (failure.faults.map Fault.message)

@[simp] theorem of?_faults (failure : Failure) : of? failure.faults = some failure := rfl

theorem of?_eq_none_iff {faults : List Fault} : of? faults = none ↔ faults = [] := by
  cases faults <;> simp [of?]

end Failure

end PojoGraph
