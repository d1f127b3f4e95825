import PojoGraph.Text.Class

/-!
# Cutting and replacing text

Small operations on texts, stated on their lists of characters.

## Main definitions

* `replaceAll` — replacement of a constant, from left to right, without overlaps.
* `trim` — a text without the blanks at its ends.
* `lines` — the lines of a text; both `\n` and `\r\n` end one.
* `splitOnce` — the two sides of the first occurrence of a character.
* `afterLast` — what follows the last occurrence of a character.
-/

namespace PojoGraph.Text

/-- Replaces `pattern`, which is not empty, from left to right; the next `skip` characters
belong to an occurrence that has been replaced. -/
def replaceFrom (pattern replacement : List Char) : Nat → List Char → List Char
  | _, [] => []
  | skip + 1, _ :: rest => replaceFrom pattern replacement skip rest
  | 0, c :: rest =>
    if pattern.isPrefixOf (c :: rest) then
      replacement ++ replaceFrom pattern replacement (pattern.length - 1) rest
    else c :: replaceFrom pattern replacement 0 rest

/-- The text with each occurrence of `pattern`, which is not empty, replaced. -/
def replaceAll (pattern replacement text : String) : String :=
  String.ofList (replaceFrom pattern.toList replacement.toList 0 text.toList)

/-- The list without the characters at its end that satisfy `p`. -/
def dropWhileEnd (p : Char → Bool) (cs : List Char) : List Char :=
  (cs.reverse.dropWhile p).reverse

/-- The list without the characters at both ends that satisfy `p`. -/
def trimWhile (p : Char → Bool) (cs : List Char) : List Char :=
  dropWhileEnd p (cs.dropWhile p)

/-- The list without the blanks at both ends. -/
def trim (cs : List Char) : List Char :=
  trimWhile isBlank cs

/-- A line without the carriage return that ends it. -/
def chomp (cs : List Char) : List Char :=
  match cs.reverse with
  | '\r' :: rest => rest.reverse
  | _ => cs

/-- The lines of a text, without their ends. A line end at the very end opens no further
line, and a last line that nothing ends keeps its carriage return. -/
def lines (cs : List Char) : List (List Char) :=
  let pieces := cs.splitOnP (· == '\n')
  match pieces.getLast? with
  | some last => pieces.dropLast.map chomp ++ if last.isEmpty then [] else [last]
  | none => []

/-- What stands before and after the first `separator`. -/
def splitOnce (separator : Char) : List Char → Option (List Char × List Char)
  | [] => none
  | c :: rest =>
    if c = separator then some ([], rest)
    else (splitOnce separator rest).map fun (before, after) => (c :: before, after)

/-- What stands after the last `separator`: the whole list if there is none. -/
def afterLast (separator : Char) (cs : List Char) : List Char :=
  (cs.reverse.takeWhile (· != separator)).reverse

/-- The rest of a list after `lead`, if it begins so. -/
def stripLead (lead cs : List Char) : Option (List Char) :=
  if lead.isPrefixOf cs then some (cs.drop lead.length) else none

/-- The texts with `separator` between them. -/
def joinWith (separator : String) (texts : List String) : String :=
  separator.intercalate texts

end PojoGraph.Text
