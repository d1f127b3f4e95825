import PojoGraph.Pattern.Reader

/-!
# Excluded schemas

Patterns in the settings keep schemas from becoming generated types. A pattern excludes the
schemas whose whole key it matches.

## Main definitions

* `Exclusion.ofPatterns` — the exclusion that a list of written patterns describes.
* `Exclusion.excludes` — whether a schema key is excluded.
-/

namespace PojoGraph

/-- The patterns of which one has to match the whole key of an excluded schema. -/
structure Exclusion where
  patterns : List Pattern

/-- A text that is no pattern. -/
structure InvalidPattern where
  pattern : String
  deriving DecidableEq, Repr

namespace Exclusion

/-- The pattern that matches where `text` matches a whole text. The frame is put around the
written form, whose parentheses may therefore close it. -/
def wholePattern? (text : String) : Option Pattern :=
  Pattern.read? ("^(?:" ++ text ++ ")$")

/-- The exclusion that written patterns describe; the first that is none is an error. -/
def ofPatterns (texts : List String) : Except InvalidPattern Exclusion :=
  Exclusion.mk <$> texts.mapM fun text =>
    match wholePattern? text with
    | some pattern => .ok pattern
    | none => .error ⟨text⟩

/-- Whether the schema key is excluded. -/
def excludes (exclusion : Exclusion) (name : String) : Bool :=
  exclusion.patterns.any (·.isMatch name)

end Exclusion

end PojoGraph
