import PojoGraph.Text.Words

/-!
# Identifiers from document keys

A key of a document becomes the name of a type or of a member. A key made of letters, numbers
and underscores keeps its spelling, save for the case of its first character; any other key is
cut into words, which are joined in Pascal or camel case.

## Main definitions

* `typeIdentifier`, `memberIdentifier` — the two forms of a key.
* `sanitize` — what is left of a key once everything but letters and numbers separates words.
-/

namespace PojoGraph

open Text

/-- Whether a key is an identifier already: letters, numbers and underscores, at least one,
the first of them no ASCII digit. -/
def isPlainIdentifier : List Char → Bool
  | [] => false
  | c :: rest => !c.isDigit && (c :: rest).all fun d => isAlphanumeric d || d == '_'

/-- The letters and numbers of a key. An underscore stands for each stretch of other characters
between them. -/
def joinStretches (gap started : Bool) : List Char → List Char
  | [] => []
  | c :: rest =>
    if isAlphanumeric c then
      (if gap && started then ['_', c] else [c]) ++ joinStretches false true rest
    else joinStretches true started rest

/-- The letters and numbers of a key with underscores between stretches of them, and one in
front of a leading digit. A key without letters and numbers is called `unnamed`. -/
def sanitize (cs : List Char) : List Char :=
  let lead := if cs.head?.any Char.isDigit then ['_'] else []
  match lead ++ joinStretches false false cs with
  | [] => "unnamed".toList
  | joined => joined

/-- A key as the name of a type: it begins in upper case. -/
def typeIdentifier (key : String) : String :=
  if isPlainIdentifier key.toList then upperFirst key
  else String.ofList (pascalCase (sanitize key.toList))

/-- A key as the name of a member: it begins in lower case. -/
def memberIdentifier (key : String) : String :=
  if isPlainIdentifier key.toList then lowerFirst key
  else String.ofList (camelCase (sanitize key.toList))

/-- Equality up to the case of ASCII letters. -/
def equalsIgnoringAsciiCase (a b : String) : Bool :=
  a.toList.map Char.toLower == b.toList.map Char.toLower

end PojoGraph
