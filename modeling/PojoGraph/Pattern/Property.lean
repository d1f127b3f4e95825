import PojoGraph.Pattern.Basic
import PojoGraph.Text.Edit

/-!
# Named character sets

## Main definitions

* `CharSet.ofProperty?` — the set of a property name, in which case, blanks, hyphens and
  underscores do not count.
* `CharSet.ofAsciiClass?` — the set of a bracketed ASCII class.
-/

namespace PojoGraph.CharSet

open Text

/-- The set of the code points from `first` to `last`. -/
def span (first last : Nat) : CharSet :=
  fun c => first ≤ c.toNat && c.toNat ≤ last

/-- The characters that are the same up to case as one in the set. -/
def foldCase (set : CharSet) : CharSet :=
  fun c => set c || (caseVariants c).any set

/-- The characters of one general category. -/
def ofCategory (category : Category) : CharSet :=
  fun c => Text.category c == category

/-- The characters of any of some general categories. -/
def ofCategories (categories : List Category) : CharSet :=
  fun c => categories.contains (Text.category c)

/-- The names of sets made of general categories. -/
def categoryNames : List (List String × CharSet) := [
  (["l", "letter"], ofCategories [.lu, .ll, .lt, .lm, .lo]),
  (["lc", "casedletter"], ofCategories [.lu, .ll, .lt]),
  (["lu", "uppercaseletter"], ofCategory .lu),
  (["ll", "lowercaseletter"], ofCategory .ll),
  (["lt", "titlecaseletter"], ofCategory .lt),
  (["lm", "modifierletter"], ofCategory .lm),
  (["lo", "otherletter"], ofCategory .lo),
  (["m", "mark", "combiningmark"], ofCategories [.mn, .mc, .me]),
  (["mn", "nonspacingmark"], ofCategory .mn),
  (["mc", "spacingmark"], ofCategory .mc),
  (["me", "enclosingmark"], ofCategory .me),
  (["n", "number"], ofCategories [.nd, .nl, .no]),
  (["nd", "decimalnumber", "digit"], ofCategory .nd),
  (["nl", "letternumber"], ofCategory .nl),
  (["no", "othernumber"], ofCategory .no),
  (["p", "punctuation", "punct"], ofCategories [.pc, .pd, .ps, .pe, .pi, .pf, .po]),
  (["pc", "connectorpunctuation"], ofCategory .pc),
  (["pd", "dashpunctuation"], ofCategory .pd),
  (["ps", "openpunctuation"], ofCategory .ps),
  (["pe", "closepunctuation"], ofCategory .pe),
  (["pi", "initialpunctuation"], ofCategory .pi),
  (["pf", "finalpunctuation"], ofCategory .pf),
  (["po", "otherpunctuation"], ofCategory .po),
  (["s", "symbol"], ofCategories [.sm, .sc, .sk, .so]),
  (["sm", "mathsymbol"], ofCategory .sm),
  (["sc", "currencysymbol"], ofCategory .sc),
  (["sk", "modifiersymbol"], ofCategory .sk),
  (["so", "othersymbol"], ofCategory .so),
  (["z", "separator"], ofCategories [.zs, .zl, .zp]),
  (["zs", "spaceseparator"], ofCategory .zs),
  (["zl", "lineseparator"], ofCategory .zl),
  (["zp", "paragraphseparator"], ofCategory .zp),
  (["c", "other"], ofCategories [.cc, .cf, .cn, .co, .cs]),
  (["cc", "control", "cntrl"], ofCategory .cc),
  (["cf", "format"], ofCategory .cf),
  (["cn", "unassigned"], ofCategory .cn),
  (["co", "privateuse"], ofCategory .co),
  (["any"], fun _ => true),
  (["assigned"], fun c => category c != .cn),
  (["ascii"], isAscii)]

/-- The names of further properties. -/
def propertyNames : List (List String × CharSet) := [
  (["alphabetic", "alpha"], isAlphabetic),
  (["lowercase", "lower"], isLowercase),
  (["uppercase", "upper"], isUppercase),
  (["cased"], isCased),
  (["caseignorable", "ci"], isCaseIgnorable),
  (["whitespace", "wspace", "space"], isBlank),
  (["joincontrol", "joinc"], span 0x200C 0x200D),
  (["asciihexdigit", "ahex"], fun c => c.isDigit || span 0x41 0x46 c || span 0x61 0x66 c)]

/-- A name in lower case, without blanks, hyphens, underscores and a leading `is`. -/
def normalizeName (name : List Char) : List Char :=
  let plain := (name.filter fun c => c != ' ' && c != '-' && c != '_').map Char.toLower
  (stripLead ['i', 's'] plain).getD plain

/-- The set of a name in a list of names. -/
def find? (names : List (List String × CharSet)) (name : List Char) : Option CharSet :=
  (names.find? fun entry => entry.1.contains (String.ofList (normalizeName name))).map (·.2)

/-- The set of a property: a name, or a general category given as the value of its key. -/
def ofProperty? (text : List Char) : Option CharSet :=
  let keyed := splitOnce '=' text <|> splitOnce ':' text
  match keyed with
  | some (key, value) =>
    let isNegated := key.getLast? == some '!'
    let key := normalizeName (if isNegated then key.dropLast else key)
    if key == ['g', 'c'] || key == "generalcategory".toList then
      (find? categoryNames value).map fun set => fun c => set c != isNegated
    else none
  | none => find? propertyNames text <|> find? categoryNames text

/-- The set of a bracketed ASCII class. -/
def ofAsciiClass? (name : List Char) : Option CharSet :=
  match String.ofList name with
  | "alnum" => some Char.isAlphanum
  | "alpha" => some Char.isAlpha
  | "ascii" => some isAscii
  | "blank" => some fun c => c == ' ' || c == '\t'
  | "cntrl" => some fun c => span 0 0x1F c || c.toNat == 0x7F
  | "digit" => some Char.isDigit
  | "graph" => some (span 0x21 0x7E)
  | "lower" => some Char.isLower
  | "print" => some (span 0x20 0x7E)
  | "punct" => some fun c => span 0x21 0x7E c && !c.isAlphanum
  | "space" => some fun c => span 9 13 c || c == ' '
  | "upper" => some Char.isUpper
  | "word" => some fun c => c.isAlphanum || c == '_'
  | "xdigit" => some fun c => c.isDigit || span 0x41 0x46 c || span 0x61 0x66 c
  | _ => none

end PojoGraph.CharSet
