import PojoGraph.Json.Value

/-!
# Reading JSON

The grammar is checked for the whole text. Whether a number fits a double, whether escapes form
whole characters and how deep values nest matters only where a value is used: at such a place
the tree is unreadable.

## Main definitions

* `Json.read?` — the tree of a text.
-/

namespace PojoGraph.Json

/-! ## Scalars -/

/-- A character of a string, or one unit of an escape; two units may make one character. -/
inductive TextPart where
  | char (c : Char)
  | unit (n : Nat)

/-- The value of a hexadecimal digit. -/
def hexValue? (c : Char) : Option Nat :=
  if c.isDigit then some (c.toNat - '0'.toNat)
  else if 'a' ≤ c ∧ c ≤ 'f' then some (c.toNat - 'a'.toNat + 10)
  else if 'A' ≤ c ∧ c ≤ 'F' then some (c.toNat - 'A'.toNat + 10)
  else none

/-- The character of an escape of one letter. -/
def shortEscape? (c : Char) : Option Char :=
  match c with
  | '"' => some '"'
  | '\\' => some '\\'
  | '/' => some '/'
  | 'b' => some (Char.ofNat 8)
  | 'f' => some (Char.ofNat 12)
  | 'n' => some '\n'
  | 'r' => some '\r'
  | 't' => some '\t'
  | _ => none

/-- The parts of a string up to the quote that ends it, and what follows. -/
def readParts? : List Char → Option (List TextPart × List Char)
  | [] => none
  | '"' :: rest => some ([], rest)
  | '\\' :: 'u' :: a :: b :: c :: d :: rest => do
    let unit := (← hexValue? a) * 4096 + (← hexValue? b) * 256 + (← hexValue? c) * 16
      + (← hexValue? d)
    let (parts, rest) ← readParts? rest
    some (.unit unit :: parts, rest)
  | '\\' :: e :: rest => do
    let c ← shortEscape? e
    let (parts, rest) ← readParts? rest
    some (.char c :: parts, rest)
  | c :: rest =>
    if c.toNat < 32 then none
    else do
      let (parts, rest) ← readParts? rest
      some (.char c :: parts, rest)

/-- The text that parts make up, if all surrogates are paired. -/
def joinParts? : List TextPart → Option (List Char)
  | [] => some []
  | .char c :: rest => (joinParts? rest).map (c :: ·)
  | .unit high :: .unit low :: rest =>
    if 0xD800 ≤ high && high < 0xDC00 && 0xDC00 ≤ low && low < 0xE000 then
      (joinParts? rest).map
        (Char.ofNat (0x10000 + (high - 0xD800) * 0x400 + (low - 0xDC00)) :: ·)
    else if 0xD800 ≤ high && high < 0xE000 then none
    else (joinParts? (.unit low :: rest)).map (Char.ofNat high :: ·)
  | .unit n :: rest =>
    if 0xD800 ≤ n && n < 0xE000 then none else (joinParts? rest).map (Char.ofNat n :: ·)

/-- A string after its opening quote. -/
def readText? (cs : List Char) : Option (Tree × List Char) := do
  let (parts, rest) ← readParts? cs
  match joinParts? parts with
  | some text => some (.text (String.ofList text), rest)
  | none => some (.unreadable, rest)

/-- The values of the digits at the front, and what follows. -/
def takeDigits (cs : List Char) : List Nat × List Char :=
  ((cs.takeWhile Char.isDigit).map fun c => c.toNat - '0'.toNat, cs.dropWhile Char.isDigit)

/-- Digits of which there must be at least one. -/
def readDigits? (cs : List Char) : Option (List Nat × List Char) :=
  match takeDigits cs with
  | ([], _) => none
  | found => some found

/-- The exponent of a number, if there is one. -/
def readExponent? (cs : List Char) : Option (Option (Bool × List Nat) × List Char) :=
  match cs with
  | c :: rest =>
    if c = 'e' || c = 'E' then
      let (isNegative, rest) := match rest with
        | '-' :: rest => (true, rest)
        | '+' :: rest => (false, rest)
        | rest => (false, rest)
      (readDigits? rest).map fun (digits, rest) => (some (isNegative, digits), rest)
    else some (none, c :: rest)
  | [] => some (none, [])

/-- The digits after the point of a number, if there is one. -/
def readFraction? (cs : List Char) : Option (Option (List Nat) × List Char) :=
  match cs with
  | '.' :: rest => (readDigits? rest).map fun (digits, rest) => (some digits, rest)
  | rest => some (none, rest)

/-- A number. Its whole part has no leading zero. -/
def readNumber? (cs : List Char) : Option (Tree × List Char) := do
  let (isNegative, cs) := match cs with
    | '-' :: rest => (true, rest)
    | rest => (false, rest)
  let (whole, cs) ← readDigits? cs
  if whole.head? == some 0 && whole.length != 1 then none
  let (fraction, cs) ← readFraction? cs
  let (exponent, cs) ← readExponent? cs
  match Number.ofLiteral? { isNegative, whole, fraction, exponent } with
  | some value => some (.number value, cs)
  | none => some (.unreadable, cs)

/-! ## Values -/

/-- What follows the blanks at the front. -/
def skipBlanks (cs : List Char) : List Char :=
  cs.dropWhile fun c => c = ' ' || c = '\n' || c = '\t' || c = '\r'

/-- A word that is a value. -/
def readWord? (cs : List Char) : Option (Tree × List Char) :=
  match cs with
  | 'n' :: 'u' :: 'l' :: 'l' :: rest => some (.null, rest)
  | 't' :: 'r' :: 'u' :: 'e' :: rest => some (.bool true, rest)
  | 'f' :: 'a' :: 'l' :: 's' :: 'e' :: rest => some (.bool false, rest)
  | _ => none

/-- A container is unreadable where no room for nesting is left. -/
def nested (room : Nat) (tree : Tree) : Tree :=
  if room = 0 then .unreadable else tree

mutual

/-- A value; `room` more levels of containers are readable. The first number bounds the steps
and is to be at least twice the length of the text. -/
def readValue? : Nat → Nat → List Char → Option (Tree × List Char)
  | 0, _, _ => none
  | fuel + 1, room, cs =>
    match skipBlanks cs with
    | '{' :: rest =>
      match skipBlanks rest with
      | '}' :: rest => some (nested room (.mapping []), rest)
      | rest => (readFields? fuel (room - 1) rest).map fun (entries, rest) =>
          (nested room (.mapping entries), rest)
    | '[' :: rest =>
      match skipBlanks rest with
      | ']' :: rest => some (nested room (.sequence []), rest)
      | rest => (readItems? fuel (room - 1) rest).map fun (items, rest) =>
          (nested room (.sequence items), rest)
    | '"' :: rest => readText? rest
    | c :: rest =>
      if c = '-' || c.isDigit then readNumber? (c :: rest) else readWord? (c :: rest)
    | [] => none

/-- The items of an array up to the bracket that closes it. -/
def readItems? : Nat → Nat → List Char → Option (List Tree × List Char)
  | 0, _, _ => none
  | fuel + 1, room, cs => do
    let (item, rest) ← readValue? fuel room cs
    match skipBlanks rest with
    | ',' :: rest => do
      let (items, rest) ← readItems? fuel room rest
      some (item :: items, rest)
    | ']' :: rest => some ([item], rest)
    | _ => none

/-- The fields of an object up to the brace that closes it. -/
def readFields? : Nat → Nat → List Char → Option (List (Tree × Tree) × List Char)
  | 0, _, _ => none
  | fuel + 1, room, cs => do
    let (key, rest) ← match skipBlanks cs with
      | '"' :: rest => readText? rest
      | _ => none
    let (value, rest) ← match skipBlanks rest with
      | ':' :: rest => readValue? fuel room rest
      | _ => none
    match skipBlanks rest with
    | ',' :: rest => do
      let (entries, rest) ← readFields? fuel room rest
      some ((key, value) :: entries, rest)
    | '}' :: rest => some ([(key, value)], rest)
    | _ => none

end

/-- How many levels of containers are readable. -/
def nestingLimit : Nat := 127

/-- The tree of a text that is one JSON value between blanks. -/
def read? (text : String) : Option Tree := do
  let cs := text.toList
  let (tree, rest) ← readValue? (2 * cs.length + 2) nestingLimit cs
  if (skipBlanks rest).isEmpty then some tree else none

end PojoGraph.Json
