import PojoGraph.Pojo.Basic

/-!
# Drafts of object types

An object type is put together part by part; only its name has to be given before it is
finished.

## Main definitions

* `ObjectDraft` — the parts given so far.
* `ObjectDraft.build` — the object type, if its name has been given.
-/

namespace PojoGraph

/-- The parts of an object type that have been given. -/
structure ObjectDraft where
  name : Option PojoName := none
  description : Option String := none
  members : List Member := []
  requiredAdditional : List String := []
  additional : AdditionalProperties := .notAllowed
  constraints : Constraints := {}
  allOf : Option (List ObjectPojo) := none
  oneOf : Option (Alternatives ObjectPojo Discriminator) := none
  anyOf : Option (Alternatives ObjectPojo Discriminator) := none
  deriving Inhabited

/-- A part that is missing. -/
structure MissingField where
  field : String
  deriving DecidableEq, Repr

/-- The text that reports a missing part. -/
def MissingField.message (missing : MissingField) : String :=
  "missing required field: " ++ missing.field

/-- The finished object type. -/
def ObjectDraft.build (draft : ObjectDraft) : Except MissingField ObjectPojo :=
  match draft.name with
  | none => .error ⟨"name"⟩
  | some name => .ok {
      name
      description := draft.description
      members := draft.members
      requiredAdditional := draft.requiredAdditional
      additional := draft.additional
      constraints := draft.constraints
      allOf := draft.allOf
      oneOf := draft.oneOf
      anyOf := draft.anyOf }

end PojoGraph
