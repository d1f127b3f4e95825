import PojoGraph.Pattern.Property

/-!
# Reading patterns

The written form of patterns: literals, the dot, escapes, bracketed classes with set operations,
groups, alternatives, repetitions and flags. There are no look-around assertions and no
back references; whatever is not a pattern reads as `none`.

## Main definitions

* `Pattern.read?` — the pattern that a text is the written form of.
* `Pattern.Flags`, `Pattern.Cursor` — what holds at a position, and a position in the text.
-/

namespace PojoGraph.Pattern

open Text

/-! ## Positions -/

/-- What the flags at a position say. -/
structure Flags where
  ignoreCase : Bool := false
  multiLine : Bool := false
  dotAll : Bool := false
  returns : Bool := false
  ignoreBlanks : Bool := false
  unicode : Bool := true

/-- A position: the text to come, the flags that hold, and the group names given so far. -/
structure Cursor where
  rest : List Char
  flags : Flags := {}
  names : List (List Char) := []

/-- A step of the reader, which may find that the text is no pattern. -/
abbrev Reading := StateT Cursor Option

/-- The text to come. -/
def rest : Reading (List Char) :=
  return (← get).rest

/-- The flags that hold. -/
def flags : Reading Flags :=
  return (← get).flags

/-- Goes on before `text`. -/
def moveTo (text : List Char) : Reading Unit :=
  modify fun cursor => { cursor with rest := text }

/-- Lets other flags hold from here on. -/
def setFlags (flags : Flags) : Reading Unit :=
  modify fun cursor => { cursor with flags }

/-- The text without the blanks and comments it begins with; inside a comment first, if said
so. -/
def afterBlanks : (inComment : Bool) → List Char → List Char
  | _, [] => []
  | true, c :: rest => afterBlanks (c != '\n') rest
  | false, c :: rest =>
    if isBlank c then afterBlanks false rest
    else if c == '#' then afterBlanks true rest
    else c :: rest

/-- The text to come where blanks do not count. -/
def significant (text : List Char) : Reading (List Char) :=
  return if (← flags).ignoreBlanks then afterBlanks false text else text

/-- Goes on before the first character of `text` that counts. -/
def advanceTo (text : List Char) : Reading Unit := do
  moveTo (← significant text)

/-- Goes on after `c`, which has to come next. -/
def expect (c : Char) : Reading Unit := do
  match ← rest with
  | d :: text => if c == d then moveTo text else failure
  | [] => failure

/-! ## Sets under flags -/

namespace Flags

/-- The set with all characters that differ from its own in case only, if case does not
count. -/
def fold (flags : Flags) (set : CharSet) : CharSet :=
  if !flags.ignoreCase then set
  else if flags.unicode then set.foldCase
  else fun c => set c || set c.toLower || set c.toUpper

/-- The characters not in the set. They can be told only where all of Unicode counts. -/
def complement (flags : Flags) (set : CharSet) : Option CharSet :=
  if flags.unicode then some fun c => !set c else none

/-- The characters that words are made of. -/
def word (flags : Flags) : CharSet :=
  if flags.unicode then isWord else fun c => c.isAlphanum || c == '_'

/-- What the dot stands for. -/
def dot (flags : Flags) : Option CharSet :=
  if !flags.unicode then none
  else if flags.dotAll then some fun _ => true
  else if flags.returns then some fun c => c != '\n' && c != '\r'
  else some (· != '\n')

/-- Where the sign for a start holds. -/
def startOf (flags : Flags) : Assertion :=
  if flags.multiLine then .lineStart flags.returns else .textStart

/-- Where the sign for an end holds. -/
def endOf (flags : Flags) : Assertion :=
  if flags.multiLine then .lineEnd flags.returns else .textEnd

/-- The flags with the one of the letter `letter` turned on or off. Greed does not bear on
whether there is a match. -/
def turn (flags : Flags) (letter : Char) (on : Bool) : Option Flags :=
  match letter with
  | 'i' => some { flags with ignoreCase := on }
  | 'm' => some { flags with multiLine := on }
  | 's' => some { flags with dotAll := on }
  | 'R' => some { flags with returns := on }
  | 'x' => some { flags with ignoreBlanks := on }
  | 'u' => some { flags with unicode := on }
  | 'U' => some flags
  | _ => none

/-- The flags changed by the letters up to `:` or `)`, and the text from there on. Letters
after the hyphen turn off; none may repeat, and the hyphen may not end them. -/
def read? (flags : Flags) (on : Bool) (seen : List Char) :
    List Char → Option (Flags × List Char)
  | [] => none
  | c :: rest =>
    if c == ':' || c == ')' then
      if seen.head? == some '-' then none else some (flags, c :: rest)
    else if seen.contains c then none
    else if c == '-' then read? flags false ('-' :: seen) rest
    else match flags.turn c on with
      | some flags => read? flags on (c :: seen) rest
      | none => none

end Flags

/-! ## Escapes -/

/-- What a single character or an escape stands for. -/
inductive Atom where
  | literal (c : Char)
  | oneOf (set : CharSet)
  | assertion (condition : Assertion)

/-- The value of a hexadecimal digit. -/
def hexDigit? (c : Char) : Option Nat :=
  if c.isDigit then some (c.toNat - '0'.toNat)
  else if 'a' ≤ c && c ≤ 'f' then some (c.toNat - 'a'.toNat + 10)
  else if 'A' ≤ c && c ≤ 'F' then some (c.toNat - 'A'.toNat + 10)
  else none

/-- The character of a code point, if there is one. -/
def charOf? (n : Nat) : Option Char :=
  if n.isValidChar then some (Char.ofNat n) else none

/-- Reads exactly `count` hexadecimal digits after `value`. -/
def readDigits : (count value : Nat) → Reading Nat
  | 0, value => return value
  | count + 1, value => do
    match ← rest with
    | c :: text =>
      let digit ← hexDigit? c
      advanceTo text
      readDigits count (value * 16 + digit)
    | [] => failure

/-- Reads the text up to a closing brace, which is passed; blanks in it do not count where
they do not count elsewhere. -/
def readBraced : (fuel : Nat) → Reading (List Char)
  | 0 => failure
  | fuel + 1 => do
    match ← rest with
    | '}' :: text => moveTo text; return []
    | c :: text => advanceTo text; return c :: (← readBraced fuel)
    | [] => failure

/-- Reads the text between braces, before the first of which the cursor stands. -/
def readBraces : Reading (List Char) := do
  match ← rest with
  | _ :: text => advanceTo text; readBraced (text.length + 1)
  | [] => failure

/-- Reads the code point that an escape spells with hexadecimal digits: `count` of them, or any
number in braces. -/
def readCodePoint (count : Nat) (text : List Char) : Reading Char := do
  advanceTo text
  match ← rest with
  | '{' :: _ => do
    let digits ← ((← readBraces).mapM hexDigit? : Option (List Nat))
    if digits.isEmpty then failure
    advanceTo (← rest)
    charOf? (digits.foldl (fun n digit => n * 16 + digit) 0)
  | _ => do
    let c ← charOf? (← readDigits count 0)
    if count == 2 && !(← flags).unicode && !isAscii c then failure
    return c

/-- Reads the property that an escape names, by one letter or in braces. -/
def readProperty (text : List Char) (negated : Bool) : Reading Atom := do
  if !(← flags).unicode then failure
  advanceTo text
  let name ← match ← rest with
    | '{' :: _ => readBraces
    | '\\' :: _ => failure
    | c :: text => advanceTo text; pure [c]
    | [] => failure
  let set := (← flags).fold (← CharSet.ofProperty? name)
  return .oneOf fun c => set c != negated

/-- Reads what may follow the sign for the edge of a word: the kind of edge, in braces. -/
def readEdge : Reading Assertion := do
  let isWord := (← flags).word
  let isNameChar (c : Char) := c.isAlpha || c == '-'
  match ← rest with
  | '{' :: text =>
    match ← significant text with
    | [] => failure
    | c :: _ =>
      if isNameChar c then
        match String.ofList (← readBraces) with
        | "start" => return .wordStart isWord
        | "end" => return .wordEnd isWord
        | "start-half" => return .wordStartHalf isWord
        | "end-half" => return .wordEndHalf isWord
        | _ => failure
      else return .wordBoundary isWord
  | _ => return .wordBoundary isWord

/-- The set of one of the letters for digits, blanks and word characters. -/
def letterSet (flags : Flags) (letter : Char) : CharSet :=
  match letter with
  | 'd' => if flags.unicode then CharSet.ofCategory .nd else Char.isDigit
  | 's' => if flags.unicode then isBlank else fun c => CharSet.span 9 13 c || c == ' '
  | _ => flags.word

/-- Reads what follows a backslash. -/
def readEscape : Reading Atom := do
  match ← rest with
  | [] => failure
  | c :: text =>
    moveTo text
    let flags ← flags
    match c with
    | 'x' => return .literal (← readCodePoint 2 text)
    | 'u' => return .literal (← readCodePoint 4 text)
    | 'U' => return .literal (← readCodePoint 8 text)
    | 'p' => readProperty text false
    | 'P' => readProperty text true
    | 'd' | 's' | 'w' => return .oneOf (letterSet flags c)
    | 'D' | 'S' | 'W' => return .oneOf (← flags.complement (letterSet flags c.toLower))
    | 'a' => return .literal '\x07'
    | 'f' => return .literal '\x0C'
    | 't' => return .literal '\t'
    | 'r' => return .literal '\r'
    | 'n' => return .literal '\n'
    | 'v' => return .literal '\x0B'
    | 'A' => return .assertion .textStart
    | 'z' => return .assertion .textEnd
    | 'b' => return .assertion (← readEdge)
    | 'B' => return .assertion (.notWordBoundary flags.word)
    | '<' => return .assertion (.wordStart flags.word)
    | '>' => return .assertion (.wordEnd flags.word)
    | c => if isAscii c && !c.isAlphanum then return .literal c else failure

/-! ## Classes -/

/-- Reads one member of a class: a character or an escape. -/
def readMember : Reading Atom := do
  match ← rest with
  | '\\' :: text => moveTo text; readEscape
  | c :: text => moveTo text; return .literal c
  | [] => failure

/-- The character of an atom that is one. Where all of Unicode does not count, classes hold
ASCII alone. -/
def Atom.literal? (flags : Flags) : Atom → Option Char
  | .literal c => if flags.unicode || isAscii c then some c else none
  | _ => none

/-- The set of an atom that may stand in a class. -/
def Atom.set? (flags : Flags) : Atom → Option CharSet
  | .oneOf set => some set
  | atom => (atom.literal? flags).map fun c d => c == d

/-- Reads a member of a class or a range of two. A hyphen before the closing bracket or before
another hyphen makes no range. -/
def readRange : Reading CharSet := do
  let first ← readMember
  advanceTo (← rest)
  match ← rest with
  | '-' :: text =>
    match ← significant text with
    | ']' :: _ | '-' :: _ => first.set? (← flags)
    | text =>
      moveTo text
      let last ← (← readMember).literal? (← flags)
      let first ← first.literal? (← flags)
      if first ≤ last then return CharSet.span first.toNat last.toNat else failure
  | [] => failure
  | _ => first.set? (← flags)

/-- The set of a bracketed ASCII class that a text begins with, and the text after it. -/
def asciiClass? (flags : Flags) (text : List Char) : Option (Option CharSet × List Char) := do
  let text ← stripLead ['[', ':'] text
  let (negated, text) := match text with
    | '^' :: text => (true, text)
    | text => (false, text)
  let (name, text) ← splitOnce ':' text
  let text ← stripLead [']'] text
  let set := flags.fold (← CharSet.ofAsciiClass? name)
  return (if negated then flags.complement set else some set, text)

/-- Reads the sign for a complement and the hyphens and the bracket that stand for themselves
at the start of a class. -/
def openClass : Reading (Bool × CharSet) := do
  advanceTo (← rest)
  let negated ← match ← rest with
    | '^' :: text => advanceTo text; pure true
    | _ => pure false
  let hyphens := (← rest).takeWhile (· == '-')
  hyphens.forM fun _ => do advanceTo ((← rest).drop 1)
  match hyphens, ← rest with
  | [], ']' :: text => advanceTo text; return (negated, (· == ']'))
  | [], _ => return (negated, fun _ => false)
  | _, _ => return (negated, (· == '-'))

/-- Closes a class: case is folded before the complement is taken. -/
def closeClass (flags : Flags) (negated : Bool) (set : CharSet) : Option CharSet :=
  if negated then flags.complement (flags.fold set) else some (flags.fold set)

/-- Reads the rest of a class. `combine` applies the operations whose left side has been read
to their right side, and `union` is what has been read of that side. -/
def readClass : (fuel : Nat) → (combine : CharSet → CharSet) → (union : CharSet) →
    Reading CharSet
  | 0, _, _ => failure
  | fuel + 1, combine, union => do
    advanceTo (← rest)
    let flags ← flags
    let operate (op : Bool → Bool → Bool) (text : List Char) : Reading CharSet := do
      moveTo text
      let left := flags.fold (combine union)
      readClass fuel (fun right c => op (left c) (flags.fold right c)) fun _ => false
    let add (set : CharSet) : Reading CharSet :=
      readClass fuel combine fun c => union c || set c
    match ← rest with
    | [] => failure
    | ']' :: text => moveTo text; return combine union
    | '&' :: '&' :: text => operate (· && ·) text
    | '-' :: '-' :: text => operate (fun left right => left && !right) text
    | '~' :: '~' :: text => operate (· != ·) text
    | '[' :: text =>
      match asciiClass? flags ('[' :: text) with
      | some (set, text) =>
        moveTo text
        add (← set)
      | none =>
        moveTo text
        let (negated, start) ← openClass
        let set ← readClass fuel id start
        add (← closeClass flags negated set)
    | _ => add (← readRange)

/-! ## Groups and repetitions -/

/-- Whether a character may stand in the name of a group. -/
def isNameChar (isFirst : Bool) (c : Char) : Bool :=
  c == '_' || if isFirst then isAlphabetic c
    else c == '.' || c == '[' || c == ']' || isAlphanumeric c

/-- Reads the name of a group up to the bracket after it. No name may repeat. -/
def readName (text : List Char) : Reading Unit := do
  let (name, text) ← splitOnce '>' text
  match name with
  | [] => failure
  | first :: others =>
    if !isNameChar true first || !others.all (isNameChar false) then failure
    if (← get).names.contains name then failure
    modify fun cursor => { cursor with rest := text, names := name :: cursor.names }

/-- What stands at the start of a group. -/
inductive GroupHead where
  /-- Flags that hold from here on. -/
  | settings (flags : Flags)
  /-- A group, and the flags that hold in it. -/
  | group (flags : Flags)

/-- Reads what stands between the opening parenthesis of a group and its pattern. -/
def readGroupHead : Reading GroupHead := do
  advanceTo (← rest)
  let flags ← flags
  match ← rest with
  | '?' :: '=' :: _ | '?' :: '!' :: _ | '?' :: '<' :: '=' :: _ | '?' :: '<' :: '!' :: _ => failure
  | '?' :: 'P' :: '<' :: text | '?' :: '<' :: text => readName text; return .group flags
  | '?' :: ')' :: _ => failure
  | '?' :: text =>
    match ← flags.read? true [] text with
    | (flags, ')' :: text) => moveTo text; return .settings flags
    | (flags, text) => moveTo (text.drop 1); return .group flags
  | _ => return .group flags

/-- Reads digits, between which blanks may not count. -/
def readCountDigits : (fuel : Nat) → Reading (List Char)
  | 0 => return []
  | fuel + 1 => do
    match ← rest with
    | c :: text =>
      if c.isDigit then advanceTo text; return c :: (← readCountDigits fuel) else return []
    | [] => return []

/-- Reads a count of 32 bits, with blanks around it. -/
def readCount : Reading Nat := do
  let text := (← rest).dropWhile isBlank
  moveTo text
  let digits ← readCountDigits text.length
  advanceTo ((← rest).dropWhile isBlank)
  let count := digits.foldl (fun n c => n * 10 + (c.toNat - '0'.toNat)) 0
  if digits.isEmpty || count ≥ 0x100000000 then failure
  return count

/-- Passes the sign that makes a repetition lazy. -/
def passLazy : Reading Unit := do
  match ← rest with
  | '?' :: text => moveTo text
  | _ => return

/-- Reads the counts of a repetition after its opening brace. -/
def readCounts : Reading (Nat × Option Nat) := do
  let least ← readCount
  let most ← match ← rest with
    | ',' :: text =>
      advanceTo text
      match ← rest with
      | '}' :: _ => pure none
      | _ => some <$> readCount
    | _ => pure (some least)
  match ← rest with
  | '}' :: text => advanceTo text
  | _ => failure
  passLazy
  if most.any (· < least) then failure
  return (least, most)

/-! ## Patterns -/

/-- The pattern of an atom outside classes. -/
def Atom.pattern (flags : Flags) : Atom → Pattern
  | .literal c => .char (flags.fold (c == ·))
  | .oneOf set => .char set
  | .assertion condition => .assertion condition

/-- The items, last first, in a sequence. Flags among them, which are no patterns, match
nothing. -/
def ofItems (items : List (Option Pattern)) : Pattern :=
  items.foldl (fun next item => .sequence (item.getD .empty) next) .empty

/-- Reads alternatives up to the end of their group, which is left. `left` are those before,
and `items` what has been read of this one, last first. -/
def readBranches : (fuel : Nat) → (left : Option Pattern) → (items : List (Option Pattern)) →
    Reading Pattern
  | 0, _, _ => failure
  | fuel + 1, left, items => do
    advanceTo (← rest)
    let flags ← flags
    let branch := match left with
      | some left => .either left (ofItems items)
      | none => ofItems items
    let add (pattern : Pattern) : Reading Pattern := readBranches fuel left (some pattern :: items)
    let repeatLast (least : Nat) (most : Option Nat) : Reading Pattern :=
      match items with
      | some pattern :: before =>
        readBranches fuel left (some (.repeated pattern least most) :: before)
      | _ => failure
    match ← rest with
    | [] | ')' :: _ => return branch
    | '|' :: text => moveTo text; readBranches fuel (some branch) []
    | '(' :: text =>
      moveTo text
      match ← readGroupHead with
      | .settings flags => setFlags flags; readBranches fuel left (none :: items)
      | .group inner =>
        setFlags inner
        let pattern ← readBranches fuel none []
        expect ')'
        setFlags flags
        add pattern
    | '[' :: text =>
      moveTo text
      let (negated, start) ← openClass
      let set ← readClass text.length id start
      add (.char (← closeClass flags negated set))
    | '*' :: text => moveTo text; passLazy; repeatLast 0 none
    | '+' :: text => moveTo text; passLazy; repeatLast 1 none
    | '?' :: text => moveTo text; passLazy; repeatLast 0 (some 1)
    | '{' :: text =>
      advanceTo text
      let (least, most) ← readCounts
      repeatLast least most
    | '.' :: text => moveTo text; add (.char (← flags.dot))
    | '^' :: text => moveTo text; add (.assertion flags.startOf)
    | '$' :: text => moveTo text; add (.assertion flags.endOf)
    | '\\' :: text => moveTo text; add ((← readEscape).pattern flags)
    | c :: text => moveTo text; add ((Atom.literal c).pattern flags)

/-- The pattern that a text is the written form of, if it is one. -/
def read? (text : String) : Option Pattern :=
  let cs := text.toList
  match (readBranches (cs.length + 1) none []).run { rest := cs } with
  | some (pattern, cursor) => if cursor.rest.isEmpty then some pattern else none
  | none => none

end PojoGraph.Pattern
