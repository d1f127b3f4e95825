import PojoGraph.Yaml.Cursor

/-!
# Tags, anchors and directives in YAML texts

## Main definitions

* `TagText` — a tag as written: a handle and what follows it.
* `readTag?`, `readAnchor?`, `readDirective?` — each with the position after it.
-/

namespace PojoGraph.Yaml

/-- A tag as written. The handle stands for the beginning of the tag; where it is empty the tag
is written in full. -/
structure TagText where
  handle : String
  suffix : String
  deriving DecidableEq, Repr, Inhabited

/-- What a line that begins with `%` says. -/
inductive Directive where
  | version (major minor : Nat)
  | tag (handle lead : String)
  deriving DecidableEq, Repr, Inhabited

/-! ## Tags -/

/-- Characters of a tag; between angle brackets a few more. -/
def isTagChar (isVerbatim : Bool) (c : Char) : Bool :=
  isWordChar c || ";/?:@&=+$.%!~*'()".toList.contains c
    || (isVerbatim && (c == ',' || c == '[' || c == ']'))

/-- The value of the two hexadecimal digits behind a percent sign. -/
def percentByte? : List Char → Option Nat
  | '%' :: a :: b :: _ => do
    let digit? (c : Char) : Option Nat :=
      if c.isDigit then some (c.toNat - '0'.toNat)
      else if 'a' ≤ c && c ≤ 'f' then some (c.toNat - 'a'.toNat + 10)
      else if 'A' ≤ c && c ≤ 'F' then some (c.toNat - 'A'.toNat + 10)
      else none
    some ((← digit? a) * 16 + (← digit? b))
  | _ => none

/-- How many bytes follow the first byte of a character, and what that byte gives to its code
point. -/
def leadByte? (byte : Nat) : Option (Nat × Nat) :=
  if byte < 0x80 then some (0, byte)
  else if byte / 0x20 == 0b110 then some (1, byte % 0x20)
  else if byte / 0x10 == 0b1110 then some (2, byte % 0x10)
  else if byte / 8 == 0b11110 then some (3, byte % 8)
  else none

/-- The code point that further bytes, written with percent signs, complete. -/
def trailBytes? : (count code : Nat) → List Char → Option Nat
  | 0, code, _ => some code
  | count + 1, code, text => do
    let byte ← percentByte? text
    if byte / 0x40 == 0b10 then trailBytes? count (code * 0x40 + byte % 0x40) (text.drop 3)
    else none

/-- The character that a text begins with, bytes of which may be written with percent signs, and
the length of what stands for it. -/
def tagChar? (isVerbatim : Bool) (text : List Char) : Option (Option (Char × Nat)) :=
  match text with
  | '%' :: _ => do
    let (count, code) ← leadByte? (← percentByte? text)
    let code ← trailBytes? count code (text.drop 3)
    if code.isValidChar then some (some (Char.ofNat code, 3 * (count + 1))) else none
  | c :: _ => some (if isTagChar isVerbatim c then some (c, 1) else none)
  | [] => some none

/-- Reads the characters of a tag. -/
def readTagChars? (isVerbatim : Bool) : (fuel : Nat) → Cursor → Option (List Char × Cursor)
  | 0, _ => none
  | fuel + 1, cursor => do
    match ← tagChar? isVerbatim cursor.rest with
    | some (c, n) =>
      let (text, cursor) ← readTagChars? isVerbatim fuel (cursor.skip n)
      some (c :: text, cursor)
    | none => some ([], cursor)

/-- Reads a handle: an exclamation mark, and word characters with another one behind them, which
may be missing. -/
def readHandle? (cursor : Cursor) : Option (List Char × Cursor) :=
  match cursor.rest with
  | '!' :: _ =>
    let (word, cursor) := (cursor.skip 1).takeWhile isWordChar
    match cursor.rest with
    | '!' :: _ => some ('!' :: word ++ ['!'], cursor.skip 1)
    | _ => some ('!' :: word, cursor)
  | _ => none

/-- Reads a tag. A lone exclamation mark is a tag written in full. -/
def readTag? (fuel : Nat) (inFlow : Bool) (cursor : Cursor) : Option (TagText × Cursor) := do
  let (tag, cursor) ← match cursor.rest with
    | '!' :: '<' :: _ => do
      let (text, cursor) ← readTagChars? true fuel (cursor.skip 2)
      match text, cursor.rest with
      | _ :: _, '>' :: _ => some (TagText.mk "" (String.ofList text), cursor.skip 1)
      | _, _ => none
    | _ => do
      let (handle, cursor) ← readHandle? cursor
      let (text, cursor) ← readTagChars? false fuel cursor
      if handle.length > 1 && handle.getLast? == some '!' then
        if text.isEmpty then none
        else some (TagText.mk (String.ofList handle) (String.ofList text), cursor)
      else match handle.drop 1 ++ text with
        | [] => some (TagText.mk "" "!", cursor)
        | suffix => some (TagText.mk "!" (String.ofList suffix), cursor)
  if atGap cursor.rest || (inFlow && cursor.rest.head? == some ',') then some (tag, cursor)
  else none

/-! ## Anchors -/

/-- Reads the name of an anchor or alias behind its sign. -/
def readAnchor? (cursor : Cursor) : Option (String × Cursor) :=
  let (name, cursor) := (cursor.skip 1).takeWhile isWordChar
  if name.isEmpty then none
  else if atGap cursor.rest || cursor.rest.head?.any ("?:,]\x7d%@\x60".toList.contains ·) then
    some (String.ofList name, cursor)
  else none

/-! ## Directives -/

/-- Reads a number of at most nine digits. -/
def readVersionNumber? (cursor : Cursor) : Option (Nat × Cursor) :=
  let (digits, cursor) := cursor.takeWhile Char.isDigit
  if digits.isEmpty || digits.length > 9 then none
  else some (digits.foldl (fun n c => n * 10 + (c.toNat - '0'.toNat)) 0, cursor)

/-- Reads the two numbers of a version. -/
def readVersion? (cursor : Cursor) : Option (Directive × Cursor) := do
  let (major, cursor) ← readVersionNumber? (cursor.skipWhile isSpacing)
  match cursor.rest with
  | '.' :: _ =>
    let (minor, cursor) ← readVersionNumber? (cursor.skip 1)
    some (.version major minor, cursor)
  | _ => none

/-- Reads a handle and what it stands for. -/
def readTagDirective? (fuel : Nat) (cursor : Cursor) : Option (Directive × Cursor) := do
  let (handle, cursor) ← readHandle? (cursor.skipWhile isSpacing)
  if handle.length > 1 && handle.getLast? != some '!' then none
  if !cursor.rest.head?.any isSpacing then none
  let (lead, cursor) ← readTagChars? true fuel (cursor.skipWhile isSpacing)
  if lead.isEmpty || !atGap cursor.rest then none
  some (.tag (String.ofList handle) (String.ofList lead), cursor)

/-- Reads a directive and the rest of its line. -/
def readDirective? (fuel : Nat) (cursor : Cursor) : Option (Directive × Cursor) := do
  let (name, cursor) := (cursor.skip 1).takeWhile isWordChar
  if !atGap cursor.rest then none
  let (directive, cursor) ← match String.ofList name with
    | "YAML" => readVersion? cursor
    | "TAG" => readTagDirective? fuel cursor
    | _ => none
  some (directive, (← cursor.endLine?))

end PojoGraph.Yaml
