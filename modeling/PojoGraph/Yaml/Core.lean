import PojoGraph.Decimal.Nearest
import PojoGraph.Document.Decode
import PojoGraph.Yaml.Node

/-!
# Values of YAML nodes

A plain scalar without a tag is null, a truth value, a number or a text, depending on how it is
spelled; quoted ones are texts. Where a text is required, the spelling of any scalar is one.

## Main definitions

* `plainTree` — what a plain scalar denotes.
* `Node.tree` — what a node denotes.
* The instance of `Source` by which documents are read from nodes.
-/

namespace PojoGraph.Yaml

open Text

/-! ## Plain scalars -/

/-- Spellings of null. -/
def isNullSpelling (text : String) : Bool :=
  text == "null" || text == "Null" || text == "NULL" || text == "~"

/-- The truth value that a text spells. -/
def boolOf? (text : String) : Option Bool :=
  match text with
  | "true" | "True" | "TRUE" => some true
  | "false" | "False" | "FALSE" => some false
  | _ => none

/-- The value of a digit in a base. -/
def digitOf? (base : Nat) (c : Char) : Option Nat :=
  (hexValue? c).filter (· < base)

/-- The number that digits in a base denote. -/
def naturalOf? (base : Nat) (digits : List Char) : Option Nat :=
  if digits.isEmpty then none
  else (digits.mapM (digitOf? base)).map (·.foldl (fun n digit => n * base + digit) 0)

/-- The number that digits denote, in the base that their beginning says. -/
def basedNatural? (text : List Char) : Option Nat :=
  match text with
  | '0' :: 'x' :: digits => naturalOf? 16 digits
  | '0' :: 'o' :: digits => naturalOf? 8 digits
  | '0' :: 'b' :: digits => naturalOf? 2 digits
  | _ => none

/-- Digits that begin with a needless zero denote no number. -/
def hasNeedlessZero (text : List Char) : Bool :=
  match text with
  | '0' :: _ :: _ => text.all Char.isDigit
  | _ => false

/-- The number that digits without a sign denote. -/
def unsigned? (text : List Char) : Option Nat :=
  basedNatural? text <|> if hasNeedlessZero text then none else naturalOf? 10 text

/-- The integer that a text spells. -/
def integerOf? (text : List Char) : Option Int :=
  match text with
  | '-' :: rest => (unsigned? rest).map fun n => -(n : Int)
  | '+' :: rest => (unsigned? rest).map fun n => (n : Int)
  | _ => (unsigned? text).map fun n => (n : Int)

/-- The number of an integer. Integers of more than 64 bits are read but denote nothing here;
those of more than 128 bits are no integers. -/
def integerTree? (value : Int) : Option Tree :=
  if -signedBound ≤ value && value < unsignedBound then some (.number (.integer value))
  else if -signedBound * unsignedBound ≤ value && value < unsignedBound * unsignedBound then
    some .unreadable
  else none

/-- The decimal number that a text without a sign spells: its digits and their exponent. -/
def decimalOf? (text : List Char) : Option (Nat × Int) := do
  let whole := text.takeWhile Char.isDigit
  let (fraction, rest) := match text.drop whole.length with
    | '.' :: rest => (rest.takeWhile Char.isDigit, rest.dropWhile Char.isDigit)
    | rest => ([], rest)
  let exponent : Int ← match rest with
    | [] => some 0
    | e :: '-' :: digits =>
      if e == 'e' || e == 'E' then (naturalOf? 10 digits).map fun n => -(n : Int) else none
    | e :: '+' :: digits =>
      if e == 'e' || e == 'E' then (naturalOf? 10 digits).map fun n => (n : Int) else none
    | e :: digits =>
      if e == 'e' || e == 'E' then (naturalOf? 10 digits).map fun n => (n : Int) else none
  some ((← naturalOf? 10 (whole ++ fraction)), exponent - fraction.length)

/-- A text without the sign in front. -/
def withoutSign (text : List Char) : List Char :=
  match text with
  | '-' :: rest => rest
  | '+' :: rest => rest
  | _ => text

/-- The double that a text spells, infinities and not-a-number among them. A decimal number that
no double holds is none. -/
def doubleOf? (text : List Char) : Option Float :=
  let unsigned := withoutSign text
  let magnitude? : Option Float := match String.ofList unsigned with
    | ".inf" | ".Inf" | ".INF" => some (1 / 0)
    | ".nan" | ".NaN" | ".NAN" => if unsigned.length == text.length then some (0 / 0) else none
    | _ => ((decimalOf? unsigned).map fun (digits, exponent) =>
        Decimal.nearest digits exponent).filter (·.isFinite)
  magnitude?.map fun x => if text.head? == some '-' then -x else x

/-- What a plain scalar denotes. -/
def plainTree (text : String) : Tree :=
  let cs := text.toList
  if text.isEmpty || isNullSpelling text then .null
  else match boolOf? text with
    | some value => .bool value
    | none =>
      match (integerOf? cs).bind integerTree? with
      | some tree => tree
      | none =>
        match if hasNeedlessZero (withoutSign cs) then none else doubleOf? cs with
        | some value => .number (.double value)
        | none => .text text

/-! ## Nodes -/

/-- The tag that the standard gives to values of a kind. -/
def coreTag (kind : String) : String :=
  "tag:yaml.org,2002:" ++ kind

/-- Whether a tag is one that a document defines for itself. -/
def isLocalTag (tag : Option String) : Bool :=
  tag.any fun tag => tag.toList.head? == some '!'

/-- What a scalar denotes. Its tag may say of which kind it has to be. -/
def scalarTree (tag : Option String) (style : ScalarStyle) (text : String) : Tree :=
  match tag with
  | none => if style == .plain then plainTree text else .text text
  | some tag =>
    if isLocalTag (some tag) then .unreadable
    else if tag == coreTag "bool" then (boolOf? text).elim .unreadable .bool
    else if tag == coreTag "int" then
      ((integerOf? text.toList).bind integerTree?).getD .unreadable
    else if tag == coreTag "float" then
      (doubleOf? text.toList).elim .unreadable fun value => .number (.double value)
    else if tag == coreTag "null" then if isNullSpelling text then .null else .unreadable
    else .text text

namespace Node

mutual

/-- What a node denotes. -/
def tree : Node → Tree
  | unreadable => .unreadable
  | scalar tag style text => scalarTree tag style text
  | sequence tag items => if isLocalTag tag then .unreadable else .sequence (treesOfItems items)
  | mapping tag entries => if isLocalTag tag then .unreadable else .mapping (treesOfEntries entries)

/-- What the items of a sequence denote. -/
def treesOfItems : List Node → List Tree
  | [] => []
  | item :: rest => item.tree :: treesOfItems rest

/-- What the entries of a mapping denote. -/
def treesOfEntries : List (Node × Node) → List (Tree × Tree)
  | [] => []
  | (key, value) :: rest => (key.tree, value.tree) :: treesOfEntries rest

end

/-- The spelling of a scalar. -/
def text? : Node → Option String
  | scalar _ _ text => some text
  | _ => none

/-- Whether nothing is written at a place. -/
def isBare : Node → Bool
  | scalar _ style text => style == .plain && text.isEmpty
  | _ => false

/-- Whether an optional value is absent. -/
def isAbsent : Node → Bool
  | scalar tag style text =>
    style == .plain && match tag with
      | none => text.isEmpty || isNullSpelling text
      | some tag => tag == coreTag "null"
  | _ => false

/-- The entries of a mapping from texts. -/
def entries? (node : Node) : Option (List (String × Node)) :=
  match node with
  | mapping _ entries => entries.mapM fun (entry : Node × Node) => do
      some ((← entry.1.text?), entry.2)
  | _ => if node.isBare then some [] else none

/-- The items of a sequence. -/
def items? (node : Node) : Option (List Node) :=
  match node with
  | sequence _ items => some items
  | _ => if node.isBare then some [] else none

end Node

/-- Any scalar is a text, fields are always named, and an empty place is an empty record or
mapping. -/
instance : Source Node where
  text? := Node.text?
  isAbsent := Node.isAbsent
  fields? names _ node := do
    let entries ← node.entries?
    names.mapM fun name =>
      match entries.filter (·.1 == name) with
      | [] => some none
      | [entry] => some (some entry.2)
      | _ => none
  entries? := Node.entries?
  tree? node := some node.tree

end PojoGraph.Yaml
