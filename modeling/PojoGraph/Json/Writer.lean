import PojoGraph.Json.Value
import PojoGraph.Text.Edit

/-!
# Written JSON

Values are written compactly, or one item a line with two blanks for each level. Characters
beyond ASCII stand for themselves; control characters are escaped.

## Main definitions

* `Json.compact` — all on one line, without blanks.
* `Json.pretty` — one item a line.
-/

namespace PojoGraph.Json

/-- The written form of one character inside a string. -/
def escapeChar (c : Char) : List Char :=
  if c = '"' then ['\\', '"']
  else if c = '\\' then ['\\', '\\']
  else if c = '\n' then ['\\', 'n']
  else if c = '\t' then ['\\', 't']
  else if c = '\r' then ['\\', 'r']
  else if c = Char.ofNat 8 then ['\\', 'b']
  else if c = Char.ofNat 12 then ['\\', 'f']
  else if c.toNat < 32 then
    '\\' :: 'u' :: '0' :: '0' :: (if c.toNat < 16 then ['0'] else []) ++ Nat.toDigits 16 c.toNat
  else [c]

/-- A string in quotes. -/
def quote (text : String) : String :=
  String.ofList ('"' :: text.toList.flatMap escapeChar ++ ['"'])

/-- The opening and closing brackets of an object. -/
def braces : String × String := ("\x7b", "\x7d")

mutual

/-- The value on one line, without blanks. -/
def compact : Json → String
  | null => "null"
  | bool value => if value then "true" else "false"
  | number value => value.text
  | string value => quote value
  | array items => "[" ++ Text.joinWith "," (compactItems items) ++ "]"
  | object fields => braces.1 ++ Text.joinWith "," (compactFields fields) ++ braces.2

/-- The written items of an array. -/
def compactItems : List Json → List String
  | [] => []
  | item :: rest => item.compact :: compactItems rest

/-- The written fields of an object. -/
def compactFields : List (String × Json) → List String
  | [] => []
  | (key, value) :: rest => (quote key ++ ":" ++ value.compact) :: compactFields rest

end

/-- Lines of items between brackets, each further in by one level than the brackets; nothing
between them if there are no items. -/
def bracketLines (brackets : String × String) (level : Nat) (items : List String) : String :=
  if items.isEmpty then brackets.1 ++ brackets.2
  else
    let indent (n : Nat) := "\n" ++ String.ofList (List.replicate (2 * n) ' ')
    brackets.1 ++ indent (level + 1) ++ Text.joinWith ("," ++ indent (level + 1)) items
      ++ indent level ++ brackets.2

mutual

/-- The value at a level of nesting, one item a line. -/
def prettyAt (level : Nat) : Json → String
  | null => "null"
  | bool value => if value then "true" else "false"
  | number value => value.text
  | string value => quote value
  | array items => bracketLines ("[", "]") level (prettyItems (level + 1) items)
  | object fields => bracketLines braces level (prettyFields (level + 1) fields)

/-- The written items of an array. -/
def prettyItems (level : Nat) : List Json → List String
  | [] => []
  | item :: rest => item.prettyAt level :: prettyItems level rest

/-- The written fields of an object. -/
def prettyFields (level : Nat) : List (String × Json) → List String
  | [] => []
  | (key, value) :: rest => (quote key ++ ": " ++ value.prettyAt level) :: prettyFields level rest

end

/-- The value, one item a line. -/
def pretty (value : Json) : String :=
  value.prettyAt 0

end PojoGraph.Json
