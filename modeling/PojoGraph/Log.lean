import PojoGraph.Pojo.Basic

/-!
# Warnings and log lines

A run that succeeds may still have degraded something; each degradation gives a warning. The
log tells what a run did, in order.

## Main definitions

* `Warning`, `Warning.message` — degradations and their texts.
* `LogLine`, `LogLine.text` — what is logged, with its level.
-/

namespace PojoGraph

/-- A degradation that a run goes on after. -/
inductive Warning where
  /-- A schema that no rule of mapping recognizes. -/
  | unrecognizedShape (pojo : PojoName) (member : String)
  /-- A reference to a type that does not exist. -/
  | danglingReference (pojo reference : PojoName)
  /-- Values of an enum that lack a description. -/
  | incompleteEnum (pojo : PojoName) (missing : List String)
  /-- An enum of other values than strings. -/
  | nonStringEnum (pojo : PojoName)
  /-- Plain types that refer to each other in a circle. -/
  | cyclicAlias (pojo : PojoName)
  deriving DecidableEq, Repr, Inhabited

/-- The text of a warning. -/
def Warning.message : Warning → String
  | unrecognizedShape pojo member =>
    "unrecognized schema shape for " ++ pojo.text ++ "." ++ member ++ ", mapped to NoType"
  | danglingReference pojo reference =>
    pojo.text ++ " references " ++ reference.text ++ ", which is not defined"
  | incompleteEnum pojo missing =>
    "enum " ++ pojo.text ++ " has no description for: " ++ Text.joinWith ", " missing
  | nonStringEnum pojo =>
    "enum " ++ pojo.text ++ " has non-string values, mapped as a plain type"
  | cyclicAlias pojo =>
    "reference cycle through " ++ pojo.text ++ " cannot be inlined"

/-- What a run logs. -/
inductive LogLine where
  | unrecognized (pojo : PojoName) (member : String)
  | classified (pojo : PojoName) (kind : String)
  | pass (number schemas : Nat)
  | round (number stubs : Nat)
  | loading (document : String)
  | warning (warning : Warning)
  | mapped (roots schemas documents pojos warnings : Nat)
  deriving DecidableEq, Repr, Inhabited

/-- A log line with its level in front. -/
def LogLine.text : LogLine → String
  | unrecognized pojo member => "DEBUG no type mapper for " ++ pojo.text ++ "." ++ member
  | classified pojo kind => "DEBUG classified " ++ pojo.text ++ " as " ++ kind
  | pass number schemas =>
    "DEBUG classification pass " ++ toString number ++ ": " ++ toString schemas ++ " schemas"
  | round number stubs =>
    "DEBUG composition round " ++ toString number ++ ": " ++ toString stubs ++ " stubs"
  | loading document => "DEBUG loading referenced document " ++ document
  | warning w => "WARN " ++ w.message
  | mapped roots schemas documents pojos warnings =>
    "INFO mapped " ++ toString roots ++ " of " ++ toString schemas ++ " schemas from "
      ++ toString documents ++ " documents to " ++ toString pojos ++ " pojos ("
      ++ toString warnings ++ " warnings)"

end PojoGraph
