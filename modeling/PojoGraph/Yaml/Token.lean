import PojoGraph.Yaml.Scalar
import PojoGraph.Yaml.Tag

/-!
# Tokens of YAML texts

A YAML text is cut into tokens. Indentation is made explicit: a token opens each block
collection, and another closes it where the indentation ends. A key is recognized by the colon
behind it, which may come up to 1024 characters later on the same line; its token is then put in
front of it.

## Main definitions

* `Token` — the tokens.
* `Scanner` — the state between two tokens.
* `Scanner.fetch?` — one token.
* `Token.scan?` — all tokens of a text.
-/

namespace PojoGraph.Yaml

/-- A token. -/
inductive Token where
  | directive (directive : Directive)
  | documentStart
  | documentEnd
  | blockSequenceStart
  | blockMappingStart
  | blockEnd
  | flowSequenceStart
  | flowSequenceEnd
  | flowMappingStart
  | flowMappingEnd
  | blockEntry
  | flowEntry
  | key
  | value
  | aliasOf (name : String)
  | anchor (name : String)
  | tag (tag : TagText)
  | scalar (style : ScalarStyle) (text : String)
  deriving DecidableEq, Repr, Inhabited

/-- A place at which a key may have begun: the number of the token there, and its position. A
key is required there if nothing else may stand at its indentation. -/
structure KeyPlace where
  isRequired : Bool
  token : Nat
  index : Nat
  line : Nat
  column : Nat

/-- The state between two tokens. -/
structure Scanner where
  cursor : Cursor
  tokens : Array Token := #[]
  /-- The columns of the open block collections, the innermost first. -/
  indents : List Nat := []
  /-- Whether a key may begin here. -/
  keyAllowed : Bool := true
  /-- The place of a possible key outside brackets. -/
  place : Option KeyPlace := none
  /-- The places of possible keys inside the open brackets, the innermost first. -/
  inner : List (Option KeyPlace) := []

namespace Scanner

/-- Whether brackets are open. -/
def inFlow (scanner : Scanner) : Bool :=
  !scanner.inner.isEmpty

/-- The column right of the innermost block collection, the least at which its parts may
stand. -/
def least (scanner : Scanner) : Nat :=
  scanner.indents.head?.elim 0 (· + 1)

/-- The place of a possible key in the innermost brackets. -/
def currentPlace (scanner : Scanner) : Option KeyPlace :=
  match scanner.inner with
  | place :: _ => place
  | [] => scanner.place

/-- The state with another place in the innermost brackets. -/
def withPlace (scanner : Scanner) (place : Option KeyPlace) : Scanner :=
  match scanner.inner with
  | _ :: outer => { scanner with inner := place :: outer }
  | [] => { scanner with place }

/-- The state before another position. -/
def moveTo (scanner : Scanner) (cursor : Cursor) : Scanner :=
  { scanner with cursor }

/-- The state with one more token. -/
def push (scanner : Scanner) (token : Token) : Scanner :=
  { scanner with tokens := scanner.tokens.push token }

/-- The state that allows keys or not. -/
def allowKeys (scanner : Scanner) (keyAllowed : Bool) : Scanner :=
  { scanner with keyAllowed }

/-! ## Possible keys -/

/-- Gives up the possible key; it may not be a required one. -/
def dropPlace? (scanner : Scanner) : Option Scanner :=
  if scanner.currentPlace.any (·.isRequired) then none else some (scanner.withPlace none)

/-- Remembers that a key may begin here. -/
def savePlace? (scanner : Scanner) : Option Scanner :=
  if scanner.keyAllowed then do
    let scanner ← scanner.dropPlace?
    let cursor := scanner.cursor
    some (scanner.withPlace (some {
      isRequired := !scanner.inFlow && scanner.indents.head? == some cursor.column
      token := scanner.tokens.size
      index := cursor.index
      line := cursor.line
      column := cursor.column }))
  else some scanner

/-- Whether a key that begins at a place can no longer be followed by its colon. -/
def isStale (cursor : Cursor) (place : KeyPlace) : Bool :=
  place.line < cursor.line || place.index + 1024 < cursor.index

/-- Gives up the possible keys that are too far back; none of them may be a required one. -/
def dropStale? (scanner : Scanner) : Option Scanner :=
  let stale := isStale scanner.cursor
  if (scanner.place :: scanner.inner).any (·.any fun place => stale place && place.isRequired) then
    none
  else some { scanner with
    place := scanner.place.filter (!stale ·)
    inner := scanner.inner.map (·.filter (!stale ·)) }

/-! ## Indentation -/

/-- Closes the block collections that begin right of a column; all of them, if none is given. -/
def unindent (scanner : Scanner) (column : Option Nat) : Scanner :=
  if scanner.inFlow then scanner
  else
    let isClosed (indent : Nat) : Bool := column.all (· < indent)
    let closed := scanner.indents.takeWhile isClosed
    { scanner with
      indents := scanner.indents.dropWhile isClosed
      tokens := scanner.tokens ++ closed.map fun _ => Token.blockEnd }

/-- Opens a block collection at a column, unless one is open there. Its token comes before the
token number `position`. -/
def indent (scanner : Scanner) (column position : Nat) (token : Token) : Scanner :=
  if scanner.inFlow || column < scanner.least then scanner
  else { scanner with
    indents := column :: scanner.indents
    tokens := scanner.tokens.insertIdxIfInBounds position token }

/-- Opens a block collection here, where a key must be allowed. -/
def indentHere? (scanner : Scanner) (token : Token) : Option Scanner :=
  if scanner.inFlow then some scanner
  else if scanner.keyAllowed then
    some (scanner.indent scanner.cursor.column scanner.tokens.size token)
  else none

/-! ## Blanks -/

/-- Passes blanks, comments and line breaks. Tabs are no blanks where a key may begin outside
brackets. -/
def skipGap : (fuel : Nat) → Scanner → Scanner
  | 0, scanner => scanner
  | fuel + 1, scanner =>
    let cursor := match scanner.cursor.rest with
      | '\uFEFF' :: _ => if scanner.cursor.column == 0 then scanner.cursor.skip 1 else scanner.cursor
      | _ => scanner.cursor
    let tabs := scanner.inFlow || !scanner.keyAllowed
    let cursor := cursor.skipWhile fun c => c == ' ' || (tabs && c == '\t')
    let cursor := match cursor.rest with
      | '#' :: _ => cursor.skipLine
      | _ => cursor
    if cursor.rest.head?.any isBreak then
      skipGap fuel { scanner with
        cursor := cursor.skipBreak
        keyAllowed := scanner.keyAllowed || !scanner.inFlow }
    else scanner.moveTo cursor

/-! ## Tokens -/

/-- The state after a sign of `n` characters. -/
def sign (scanner : Scanner) (n : Nat) (token : Token) : Scanner :=
  (scanner.moveTo (scanner.cursor.skip n)).push token

/-- Opens brackets. -/
def openFlow? (scanner : Scanner) (token : Token) : Option Scanner := do
  let scanner ← scanner.savePlace?
  some (({ scanner with inner := none :: scanner.inner, keyAllowed := true }).sign 1 token)

/-- Closes brackets, if any are open. -/
def closeFlow? (scanner : Scanner) (token : Token) : Option Scanner := do
  let scanner ← scanner.dropPlace?
  some (({ scanner with inner := scanner.inner.tail, keyAllowed := false }).sign 1 token)

/-- Closes all block collections and reads a directive. -/
def directive? (fuel : Nat) (scanner : Scanner) : Option Scanner := do
  let scanner ← (scanner.unindent none).dropPlace?
  let (directive, cursor) ← readDirective? fuel scanner.cursor
  some (((scanner.moveTo cursor).allowKeys false).push (.directive directive))

/-- Closes all block collections at the start or end of a document. -/
def documentMark? (scanner : Scanner) (token : Token) : Option Scanner := do
  let scanner ← (scanner.unindent none).dropPlace?
  some ((scanner.allowKeys false).sign 3 token)

/-- Separates entries between brackets. -/
def flowEntry? (scanner : Scanner) : Option Scanner := do
  let scanner ← scanner.dropPlace?
  some ((scanner.allowKeys true).sign 1 .flowEntry)

/-- Begins an entry of a block sequence. -/
def blockEntry? (scanner : Scanner) : Option Scanner := do
  let scanner ← (← scanner.indentHere? .blockSequenceStart).dropPlace?
  some ((scanner.allowKeys true).sign 1 .blockEntry)

/-- Begins a key that a question mark announces. -/
def key? (scanner : Scanner) : Option Scanner := do
  let scanner ← (← scanner.indentHere? .blockMappingStart).dropPlace?
  some ((scanner.allowKeys !scanner.inFlow).sign 1 .key)

/-- Begins a value. What stands at the place of a possible key then is one. -/
def value? (scanner : Scanner) : Option Scanner :=
  match scanner.currentPlace with
  | some place =>
    let scanner := { scanner with tokens := scanner.tokens.insertIdxIfInBounds place.token .key }
    let scanner := scanner.indent place.column place.token .blockMappingStart
    some (((scanner.withPlace none).allowKeys false).sign 1 .value)
  | none => do
    let scanner ← scanner.indentHere? .blockMappingStart
    some ((scanner.allowKeys !scanner.inFlow).sign 1 .value)

/-- Reads a part of a node after which no key may begin on the same line. -/
def part? (scanner : Scanner) (read : Cursor → Option (Token × Cursor)) : Option Scanner := do
  let scanner ← scanner.savePlace?
  let (token, cursor) ← read scanner.cursor
  some (((scanner.moveTo cursor).allowKeys false).push token)

/-- The state after a scalar; a key may begin on the line after it. -/
def scalar (scanner : Scanner) (style : ScalarStyle) (scalar : ScalarEnd) : Scanner :=
  ((scanner.moveTo scalar.cursor).allowKeys scalar.isBroken).push (.scalar style scalar.text)

/-- Reads a plain or quoted scalar. -/
def lineScalar? (scanner : Scanner) (style : ScalarStyle) (read : Cursor → Option ScalarEnd) :
    Option Scanner := do
  let scanner ← scanner.savePlace?
  some (scanner.scalar style (← read scanner.cursor))

/-- Reads a block. -/
def blockScalar? (fuel : Nat) (scanner : Scanner) (isFolded : Bool) : Option Scanner := do
  let scanner ← scanner.dropPlace?
  let parent := scanner.indents.head?.getD 0
  let block ← readBlock? fuel isFolded parent (max scanner.least 1) scanner.cursor
  some (scanner.scalar (if isFolded then .folded else .literal) block)

/-- Whether a plain scalar may begin with `c`, given what follows. -/
def beginsPlain (inFlow : Bool) (c : Char) (rest : List Char) : Bool :=
  match c with
  | '-' => !rest.head?.any isSpacing
  | '?' | ':' => !inFlow && !atGap rest
  | _ => !(isSpacing c || isBreak c || ",[]\x7b\x7d#&*!|>'\"%@\x60".toList.contains c)

/-- Reads the token that begins here. -/
def fetch? (fuel : Nat) (scanner : Scanner) : Option Scanner :=
  match scanner.cursor.rest with
  | [] => none
  | c :: rest =>
    let inFlow := scanner.inFlow
    if scanner.cursor.column == 0 && c == '%' then scanner.directive? fuel
    else if scanner.cursor.atDocumentMark then
      scanner.documentMark? (if c == '-' then .documentStart else .documentEnd)
    else match c with
      | '[' => scanner.openFlow? .flowSequenceStart
      | '\x7b' => scanner.openFlow? .flowMappingStart
      | ']' => scanner.closeFlow? .flowSequenceEnd
      | '\x7d' => scanner.closeFlow? .flowMappingEnd
      | ',' => scanner.flowEntry?
      | '*' => scanner.part? fun cursor =>
          (readAnchor? cursor).map fun (name, cursor) => (.aliasOf name, cursor)
      | '&' => scanner.part? fun cursor =>
          (readAnchor? cursor).map fun (name, cursor) => (.anchor name, cursor)
      | '!' => scanner.part? fun cursor =>
          (readTag? fuel inFlow cursor).map fun (tag, cursor) => (.tag tag, cursor)
      | '\'' => scanner.lineScalar? .single (readQuoted? fuel true)
      | '"' => scanner.lineScalar? .double (readQuoted? fuel false)
      | _ =>
        if c == '-' && atGap rest then scanner.blockEntry?
        else if c == '?' && (inFlow || atGap rest) then scanner.key?
        else if c == ':' && (inFlow || atGap rest) then scanner.value?
        else if c == '|' && !inFlow then scanner.blockScalar? fuel false
        else if c == '>' && !inFlow then scanner.blockScalar? fuel true
        else if beginsPlain inFlow c rest then
          scanner.lineScalar? .plain (readPlain? fuel inFlow scanner.least)
        else none

/-- Passes what separates tokens, and closes the block collections that end there. -/
def advance? (fuel : Nat) (scanner : Scanner) : Option Scanner := do
  let scanner ← (skipGap fuel scanner).dropStale?
  some (scanner.unindent (some scanner.cursor.column))

/-- Reads all tokens to come. Each takes away at least one character, so that `count` need not
be larger than the number of these. -/
def run? (fuel : Nat) : (count : Nat) → Scanner → Option (List Token)
  | 0, _ => none
  | count + 1, scanner => do
    let scanner ← scanner.advance? fuel
    if scanner.cursor.rest.isEmpty then
      (scanner.unindent none).dropPlace?.map (·.tokens.toList)
    else run? fuel count (← scanner.fetch? fuel)

end Scanner

namespace Token

/-- Characters that may stand in a text. -/
def isAllowed (c : Char) : Bool :=
  let n := c.toNat
  n == 9 || n == 10 || n == 13 || n == 0x85 || (0x20 ≤ n && n ≤ 0x7E)
    || (0xA0 ≤ n && n ≤ 0xFFFD) || 0x10000 ≤ n

/-- The tokens of a text. A byte order mark in front does not count. -/
def scan? (text : String) : Option (List Token) :=
  let cs := match text.toList with
    | '\uFEFF' :: rest => rest
    | cs => cs
  if cs.all isAllowed then
    let fuel := cs.length + 2
    Scanner.run? fuel fuel { cursor := { rest := cs } }
  else none

end Token

end PojoGraph.Yaml
