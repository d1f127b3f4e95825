import PojoGraph.Text.CaseMap

/-!
# Words of an identifier

A text is cut into words at every character that is neither letter nor number, after a
lower-case letter that an upper-case one follows, and before the last of a run of capitals
that a lower-case letter follows (`XMLHttp` is `XML` and `Http`). Joined identifiers are built
from the words.

## Main definitions

* `words` — the words of a text.
* `pascalCase`, `camelCase` — the words joined, each capitalized; in camel case the first
  word is in lower case.
-/

namespace PojoGraph.Text

/-- The case of the word read so far: nothing cased yet, or the case of its last cased
character. -/
inductive Trend where
  | none
  | lower
  | upper
  deriving DecidableEq, Repr

/-- The trend after one more character. -/
def Trend.next (trend : Trend) (c : Char) : Trend :=
  if isLowercase c then .lower else if isUppercase c then .upper else trend

/-- Cuts a run of letters and numbers into words; `word` holds, reversed, what the current
word has so far. -/
def cutRun (trend : Trend) (word : List Char) : List Char → List (List Char)
  | [] => []
  | [c] => [(c :: word).reverse]
  | c :: d :: rest =>
    if trend.next c = .lower && isUppercase d then
      (c :: word).reverse :: cutRun .none [] (d :: rest)
    else if trend = .upper && isUppercase c && isLowercase d then
      word.reverse :: cutRun .none [c] (d :: rest)
    else cutRun (trend.next c) (c :: word) (d :: rest)

/-- The words of a text. -/
def words (cs : List Char) : List (List Char) :=
  (cs.splitOnP (!isAlphanumeric ·)).flatMap (cutRun .none [])

/-- A word in lower case; a capital sigma is final only at the very end. -/
def lowerWord : List Char → List Char
  | [] => []
  | c :: rest => (if c == 'Σ' && rest.isEmpty then ['ς'] else lowerChar c) ++ lowerWord rest

/-- A word with its first character in upper case and the others in lower case. -/
def capitalize : List Char → List Char
  | [] => []
  | c :: rest => upperChar c ++ lowerWord rest

/-- All words capitalized and joined. -/
def pascalCase (cs : List Char) : List Char :=
  (words cs).flatMap capitalize

/-- The first word in lower case, the others capitalized, joined. -/
def camelCase (cs : List Char) : List Char :=
  match words cs with
  | first :: others => lowerWord first ++ others.flatMap capitalize
  | [] => []

end PojoGraph.Text
