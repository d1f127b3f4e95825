import PojoGraph.Yaml.Cursor

/-!
# Scalars in YAML texts

A scalar is written plain, in single or double quotes, or as an indented block. Within plain and
quoted scalars a gap that contains line breaks is folded: one break counts as a blank, and of
several the first does not count.

## Main definitions

* `Gap` — blanks and line breaks between two stretches of a scalar.
* `readPlain?`, `readQuoted?`, `readBlock?` — scalars, with the position after them.
-/

namespace PojoGraph.Yaml

/-- How a scalar is written. -/
inductive ScalarStyle where
  | plain
  | single
  | double
  | literal
  | folded
  deriving DecidableEq, Repr, Inhabited

/-! ## Gaps -/

/-- A gap in a scalar: the blanks before the first line break, if there is none, or all breaks.
A break behind a backslash is not counted. -/
structure Gap where
  blanks : List Char := []
  isBroken : Bool := false
  isEscaped : Bool := false
  breaks : List Char := []

/-- What a gap stands for. -/
def Gap.text (gap : Gap) : List Char :=
  if !gap.isBroken then gap.blanks
  else if gap.isEscaped then gap.breaks
  else match gap.breaks with
    | ['\n'] => [' ']
    | '\n' :: more => more
    | breaks => breaks

/-- Reads a gap. Behind a line break, tabs may not stand left of column `indent`. -/
def readGap? (indent : Nat) : (fuel : Nat) → Gap → Cursor → Option (Gap × Cursor)
  | 0, _, _ => none
  | fuel + 1, gap, cursor =>
    match cursor.rest with
    | [] => some (gap, cursor)
    | c :: _ =>
      if isBreak c then
        readGap? indent fuel
          { gap with blanks := [], isBroken := true, breaks := gap.breaks ++ [normalBreak c] }
          cursor.skipBreak
      else if isSpacing c then
        if !gap.isBroken then
          readGap? indent fuel { gap with blanks := gap.blanks ++ [c] } (cursor.skip 1)
        else if c == '\t' && cursor.column < indent then none
        else readGap? indent fuel gap (cursor.skip 1)
      else some (gap, cursor)

/-! ## Plain scalars -/

/-- Characters that end a plain scalar inside brackets. -/
def isFlowIndicator (c : Char) : Bool :=
  c == ',' || c == '[' || c == ']' || c == '\x7b' || c == '\x7d'

/-- Whether a colon inside brackets may not stand before the text. -/
def forbidsColon : List Char → Bool
  | c :: _ => isFlowIndicator c || c == '?'
  | [] => false

/-- The text of a plain scalar up to a gap or its end, and its length. Inside brackets, a colon
may not stand before an indicator. -/
def plainStretch? (inFlow : Bool) : List Char → Option (List Char × Nat)
  | [] => some ([], 0)
  | c :: rest =>
    if isSpacing c || isBreak c then some ([], 0)
    else if inFlow && c == ':' && forbidsColon rest then none
    else if (c == ':' && atGap rest) || (inFlow && isFlowIndicator c) then some ([], 0)
    else match plainStretch? inFlow rest with
      | some (stretch, n) => some (c :: stretch, n + 1)
      | none => none

/-- A scalar that has been read: its text, whether a line break follows it, and the position
after it. -/
structure ScalarEnd where
  text : String
  isBroken : Bool
  cursor : Cursor

/-- Reads the rest of a plain scalar. `text` is what has been read of it, last character first,
and `gap` the gap that has been read after that. -/
def readPlainFrom? (inFlow : Bool) (indent : Nat) :
    (fuel : Nat) → (text : List Char) → Gap → Cursor → Option ScalarEnd
  | 0, _, _, _ => none
  | fuel + 1, text, gap, cursor =>
    let done (text : List Char) (gap : Gap) (cursor : Cursor) : Option ScalarEnd :=
      some ⟨String.ofList text.reverse, gap.isBroken, cursor⟩
    if cursor.atDocumentMark || cursor.rest.head? == some '#' then done text gap cursor
    else do
      let (stretch, n) ← plainStretch? inFlow cursor.rest
      if n == 0 then done text gap cursor
      else
        let text := stretch.reverse ++ gap.text.reverse ++ text
        let cursor := cursor.skip n
        if cursor.rest.head?.any fun c => isSpacing c || isBreak c then
          let (gap, after) ← readGap? indent fuel {} cursor
          if !inFlow && after.column < indent then done text gap after
          else readPlainFrom? inFlow indent fuel text gap after
        else done text {} cursor

/-- Reads a plain scalar. Outside brackets it ends before a line that begins left of column
`indent`. -/
def readPlain? (fuel : Nat) (inFlow : Bool) (indent : Nat) (cursor : Cursor) : Option ScalarEnd :=
  readPlainFrom? inFlow indent fuel [] {} cursor

/-! ## Quoted scalars -/

/-- The value of a hexadecimal digit. -/
def hexValue? (c : Char) : Option Nat :=
  if c.isDigit then some (c.toNat - '0'.toNat)
  else if 'a' ≤ c && c ≤ 'f' then some (c.toNat - 'a'.toNat + 10)
  else if 'A' ≤ c && c ≤ 'F' then some (c.toNat - 'A'.toNat + 10)
  else none

/-- The character whose code point is written in the first `n` hexadecimal digits of a text. -/
def hexChar? (n : Nat) (text : List Char) : Option Char := do
  let digits := text.take n
  if digits.length < n then none
  let values ← digits.mapM hexValue?
  let code := values.foldl (fun code value => code * 16 + value) 0
  if code.isValidChar then some (Char.ofNat code) else none

/-- The character that an escape stands for, given the text after the backslash, and the length
of that escape without the backslash. -/
def escape? : List Char → Option (Char × Nat)
  | '0' :: _ => some ('\x00', 1)
  | 'a' :: _ => some ('\x07', 1)
  | 'b' :: _ => some ('\x08', 1)
  | 't' :: _ => some ('\t', 1)
  | '\t' :: _ => some ('\t', 1)
  | 'n' :: _ => some ('\n', 1)
  | 'v' :: _ => some ('\x0B', 1)
  | 'f' :: _ => some ('\x0C', 1)
  | 'r' :: _ => some ('\r', 1)
  | 'e' :: _ => some ('\x1B', 1)
  | ' ' :: _ => some (' ', 1)
  | '"' :: _ => some ('"', 1)
  | '/' :: _ => some ('/', 1)
  | '\\' :: _ => some ('\\', 1)
  | 'N' :: _ => some ('\u0085', 1)
  | '_' :: _ => some ('\u00A0', 1)
  | 'L' :: _ => some ('\u2028', 1)
  | 'P' :: _ => some ('\u2029', 1)
  | 'x' :: rest => (hexChar? 2 rest).map (·, 3)
  | 'u' :: rest => (hexChar? 4 rest).map (·, 5)
  | 'U' :: rest => (hexChar? 8 rest).map (·, 9)
  | _ => none

/-- Reads the rest of a quoted scalar; `text` is what has been read of it, last character
first. -/
def readQuotedFrom? (isSingle : Bool) :
    (fuel : Nat) → (text : List Char) → Cursor → Option ScalarEnd
  | 0, _, _ => none
  | fuel + 1, text, cursor =>
    if cursor.atDocumentMark then none
    else match cursor.rest with
      | [] => none
      | '\'' :: rest =>
        if !isSingle then readQuotedFrom? isSingle fuel ('\'' :: text) (cursor.skip 1)
        else if rest.head? == some '\'' then
          readQuotedFrom? isSingle fuel ('\'' :: text) (cursor.skip 2)
        else some ⟨String.ofList text.reverse, false, cursor.skip 1⟩
      | c :: rest =>
        if !isSingle && c == '"' then some ⟨String.ofList text.reverse, false, cursor.skip 1⟩
        else if !isSingle && c == '\\' then
          if rest.head?.any isBreak then do
            let (gap, cursor) ← readGap? 0 fuel { isBroken := true, isEscaped := true }
              (cursor.skip 1).skipBreak
            readQuotedFrom? isSingle fuel (gap.text.reverse ++ text) cursor
          else do
            let (d, n) ← escape? rest
            readQuotedFrom? isSingle fuel (d :: text) (cursor.skip (n + 1))
        else if isSpacing c || isBreak c then do
          let (gap, cursor) ← readGap? 0 fuel {} cursor
          readQuotedFrom? isSingle fuel (gap.text.reverse ++ text) cursor
        else readQuotedFrom? isSingle fuel (c :: text) (cursor.skip 1)

/-- Reads a quoted scalar, before the opening quote of which the cursor stands. -/
def readQuoted? (fuel : Nat) (isSingle : Bool) (cursor : Cursor) : Option ScalarEnd :=
  readQuotedFrom? isSingle fuel [] (cursor.skip 1)

/-! ## Block scalars -/

/-- What becomes of the line breaks at the end of a block. -/
inductive Chomping where
  | strip
  | clip
  | keep
  deriving DecidableEq, Repr

/-- The header of a block: how it ends, and by how much it is indented if that is said. -/
def blockHeader? (cursor : Cursor) : Option (Chomping × Option Nat × Cursor) :=
  let chomping? : List Char → Option Chomping
    | '+' :: _ => some .keep
    | '-' :: _ => some .strip
    | _ => none
  let digit? : List Char → Option Nat
    | c :: _ => if c.isDigit then some (c.toNat - '0'.toNat) else none
    | [] => none
  let header := match chomping? cursor.rest, digit? cursor.rest with
    | some chomping, _ =>
      match digit? (cursor.rest.drop 1) with
      | some n => (chomping, some n, cursor.skip 2)
      | none => (chomping, none, cursor.skip 1)
    | none, some n =>
      match chomping? (cursor.rest.drop 1) with
      | some chomping => (chomping, some n, cursor.skip 2)
      | none => (.clip, some n, cursor.skip 1)
    | none, none => (.clip, none, cursor)
  if header.2.1 == some 0 then none
  else header.2.2.endLine?.map (header.1, header.2.1, ·)

/-- Reads the empty lines before a line of a block, and its indentation: up to column `limit`, if
that is known. Gives the widest indentation met and the breaks read. -/
def readIndent? (limit : Option Nat) :
    (fuel widest : Nat) → (breaks : List Char) → Cursor → Option (Nat × List Char × Cursor)
  | 0, _, _, _ => none
  | fuel + 1, widest, breaks, cursor =>
    let spaces := (cursor.rest.takeWhile (· == ' ')).length
    let cursor := cursor.skip (limit.elim spaces fun column => min spaces (column - cursor.column))
    let widest := max widest cursor.column
    match cursor.rest with
    | [] => some (widest, breaks, cursor)
    | c :: _ =>
      if c == '\t' && limit.all (cursor.column < ·) then none
      else if isBreak c then
        readIndent? limit fuel widest (breaks ++ [normalBreak c]) cursor.skipBreak
      else some (widest, breaks, cursor)

/-- What has been read of a block: its text, last character first, the break that ended the last
line, whether that line began with a blank, and the breaks of the empty lines after it. -/
structure BlockState where
  text : List Char := []
  lineBreak : List Char := []
  wasIndented : Bool := false
  breaks : List Char := []

/-- What a block denotes. -/
def BlockState.finish (state : BlockState) : Chomping → String
  | .strip => String.ofList state.text.reverse
  | .clip => String.ofList (state.text.reverse ++ state.lineBreak)
  | .keep => String.ofList (state.text.reverse ++ state.lineBreak ++ state.breaks)

/-- The text of a block with the breaks before its next line. Folding turns a single break into a
blank, unless a line beside it begins with one. -/
def BlockState.joined (state : BlockState) (isFolded isIndented : Bool) : List Char :=
  if isFolded && state.lineBreak == ['\n'] && !state.wasIndented && !isIndented then
    if state.breaks.isEmpty then ' ' :: state.text else state.breaks.reverse ++ state.text
  else state.breaks.reverse ++ state.lineBreak.reverse ++ state.text

/-- Reads the lines of a block that begin at column `indent`. -/
def readLines? (isFolded : Bool) (indent : Nat) :
    (fuel : Nat) → BlockState → Cursor → Option (BlockState × Cursor)
  | 0, _, _ => none
  | fuel + 1, state, cursor =>
    if cursor.column != indent || cursor.rest.isEmpty then some (state, cursor)
    else do
      let isIndented := cursor.rest.head?.any isSpacing
      let (line, after) := cursor.takeWhile (!isBreak ·)
      let (_, breaks, next) ← readIndent? (some indent) fuel 0 [] after.skipBreak
      readLines? isFolded indent fuel
        { text := line.reverse ++ state.joined isFolded isIndented
          lineBreak := (after.rest.head?.map normalBreak).toList
          wasIndented := isIndented
          breaks } next

/-- Reads a block, before the indicator of which the cursor stands. Its indentation, where it is
not said, is that of its first line, but at least `least`; where it is, it counts from
`parent`. -/
def readBlock? (fuel : Nat) (isFolded : Bool) (parent least : Nat) (cursor : Cursor) :
    Option ScalarEnd := do
  let (chomping, increment, cursor) ← blockHeader? (cursor.skip 1)
  let limit := increment.map (parent + ·)
  let (widest, breaks, cursor) ← readIndent? limit fuel 0 [] cursor
  let indent := limit.getD (max widest least)
  let (state, cursor) ← readLines? isFolded indent fuel { breaks } cursor
  some ⟨state.finish chomping, true, cursor⟩

end PojoGraph.Yaml
