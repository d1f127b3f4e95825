import PojoGraph.Json.Value
import PojoGraph.Text.Edit
import PojoGraph.Yaml.Core

/-!
# Written YAML

A value is written with one field or item a line, the items of a sequence in the column of the
key they belong to. A text is written plain where it then reads as itself; where it would read as
another value or as markup it goes between single quotes, where it has several lines it becomes
an indented block, and where neither can hold its characters it goes between double quotes.

## Main definitions

* `writtenStyle` — how a text is written.
* `writeText` — a written text.
* `write` — a written value.
-/

namespace PojoGraph.Yaml

open Text

/-! ## The choice of a style -/

/-- Characters that stand for themselves outside double quotes. -/
def isPrintable (c : Char) : Bool :=
  let n := c.toNat
  n == 0x0a || (0x20 ≤ n && n ≤ 0x7e) || (0xa0 ≤ n && n ≤ 0xfffd && n != 0xfeff) || 0x10000 ≤ n

/-- Whether some two neighbours satisfy `p`. -/
def anyNeighbours (p : Char → Char → Bool) : List Char → Bool
  | a :: b :: rest => p a b || anyNeighbours p (b :: rest)
  | _ => false

/-- Characters that open something other than a plain scalar. -/
def isOpeningIndicator (c : Char) : Bool :=
  "#,[]\x7b\x7d&*!|>'\"%@\x60".contains c

/-- Whether the beginning of a text is markup. -/
def opensMarkup : List Char → Bool
  | '-' :: '-' :: '-' :: _ => true
  | '.' :: '.' :: '.' :: _ => true
  | c :: rest => isOpeningIndicator c || ((c == '?' || c == ':' || c == '-') && atGap rest)
  | [] => false

/-- Whether there is markup behind the first character of a text: a colon before a gap, or a
number sign after one. -/
def containsMarkup : List Char → Bool
  | a :: b :: rest =>
    (b == ':' && atGap rest) || (b == '#' && (isSpacing a || isBreak a))
      || containsMarkup (b :: rest)
  | _ => false

/-- Whether a text begins or ends with a space or a line break. -/
def hasLooseEnd (text : List Char) : Bool :=
  let isLoose (c : Char) : Bool := c == ' ' || isBreak c
  text.head?.any isLoose || text.getLast?.any isLoose

/-- Whether a text has characters, or a space before a line break, that are lost outside double
quotes. -/
def needsEscapes (text : List Char) : Bool :=
  text.any (!isPrintable ·) || anyNeighbours (fun a b => a == ' ' && isBreak b) text

/-- Whether a text between single quotes reads as itself. -/
def allowsSingle (text : List Char) : Bool :=
  !needsEscapes text && !anyNeighbours (fun a b => isBreak a && b == ' ') text

/-- Whether a plain text reads as a scalar that spells it. -/
def allowsPlain (text : List Char) : Bool :=
  allowsSingle text && !hasLooseEnd text && !text.any isBreak && !opensMarkup text
    && !containsMarkup text

/-- Whether a text as an indented block reads as itself. -/
def allowsLiteral (text : List Char) : Bool :=
  !needsEscapes text && text.getLast?.all (· != ' ')

/-- Whether a plain text denotes something other than itself, or is a number to readers that
take leading zeros. -/
def isAmbiguous (text : String) : Bool :=
  match plainTree text with
  | .text _ => hasNeedlessZero (withoutSign text.toList)
  | _ => true

/-- How a text is written. -/
def writtenStyle (text : String) : ScalarStyle :=
  let cs := text.toList
  if cs.contains '\n' then if allowsLiteral cs then .literal else .double
  else if allowsPlain cs && !isAmbiguous text then .plain
  else if allowsSingle cs then .single
  else .double

/-! ## Texts -/

/-- Blanks up to a column. -/
def indentation (column : Nat) : List Char :=
  List.replicate column ' '

/-- Digits of a number in base 16, as many as `width`. -/
def hexDigits (width n : Nat) : List Char :=
  let digits := (Nat.toDigits 16 n).map Char.toUpper
  List.replicate (width - digits.length) '0' ++ digits

/-- The name of a character behind a backslash. -/
def escapeName (c : Char) : List Char :=
  match c.toNat with
  | 0x00 => ['0']
  | 0x07 => ['a']
  | 0x08 => ['b']
  | 0x09 => ['t']
  | 0x0a => ['n']
  | 0x0b => ['v']
  | 0x0c => ['f']
  | 0x0d => ['r']
  | 0x1b => ['e']
  | 0x22 => ['"']
  | 0x5c => ['\\']
  | 0x85 => ['N']
  | 0x2028 => ['L']
  | 0x2029 => ['P']
  | n =>
    if n ≤ 0xff then 'x' :: hexDigits 2 n
    else if n ≤ 0xffff then 'u' :: hexDigits 4 n
    else 'U' :: hexDigits 8 n

/-- A character between double quotes. -/
def doubleQuoted (c : Char) : List Char :=
  if !isPrintable c || isBreak c || c == '"' || c == '\\' then '\\' :: escapeName c else [c]

/-- The lines of a text, those after a line break moved to a column; a line without characters
is not moved. -/
def moveLines (column : Nat) : (afterBreak : Bool) → List Char → List Char
  | _, [] => []
  | afterBreak, c :: rest =>
    if isBreak c then c :: moveLines column true rest
    else (if afterBreak then indentation column else []) ++ c :: moveLines column false rest

/-- What stands between the single quotes around a text. -/
def singleQuoted (column : Nat) (text : List Char) : List Char :=
  moveLines column false (text.flatMap fun c => if c == '\'' then ['\'', '\''] else [c])
    ++ if text.getLast?.any isBreak then indentation column else []

/-- The signs behind the bar that opens a block: how far it is indented, where its first line
does not show that, and what becomes of the line breaks at its end. -/
def blockSigns (text : List Char) : List Char :=
  let first := if text.head?.any fun c => c == ' ' || isBreak c then ['2'] else []
  let last := match text.reverse with
    | [] => ['-']
    | [c] => if isBreak c then ['+'] else ['-']
    | c :: d :: _ => if !isBreak c then ['-'] else if isBreak d then ['+'] else []
  first ++ last

/-- A written text. Its further lines begin in a column. -/
def writeText (column : Nat) (text : String) : List Char :=
  let cs := text.toList
  match writtenStyle text with
  | .single => '\'' :: singleQuoted column cs ++ ['\'']
  | .double => '"' :: cs.flatMap doubleQuoted ++ ['"']
  | .literal => '|' :: blockSigns cs ++ '\n' :: moveLines column true cs
  | _ => cs

/-- The text with its last line ended. -/
def endLastLine (text : List Char) : String :=
  String.ofList (if text.getLast?.any isBreak then text else text ++ ['\n'])

/-! ## Values -/

/-- Whether a key stands on one line with its value. -/
def isSimpleKey (key : String) : Bool :=
  !key.toList.any isBreak && key.utf8ByteSize ≤ 128

/-- What stands between the key of a field and its value, and the column where the value begins;
the key is in a column. -/
def beforeValue (column : Nat) : Json → String × Nat
  | .object (_ :: _) => ("\n" ++ String.ofList (indentation (column + 2)), column + 2)
  | .array (_ :: _) => ("\n" ++ String.ofList (indentation column), column)
  | _ => (" ", column + 2)

mutual

/-- A value that begins in a column. -/
def writeAt (column : Nat) : Json → String
  | .null => "null\n"
  | .bool value => if value then "true\n" else "false\n"
  | .number value => value.text ++ "\n"
  | .string value => endLastLine (writeText column value)
  | .array [] => "[]\n"
  | .array items => joinWith (String.ofList (indentation column)) (writeItems column items)
  | .object [] => "\x7b\x7d\n"
  | .object fields => joinWith (String.ofList (indentation column)) (writeFields column fields)

/-- The items of a sequence in a column. -/
def writeItems (column : Nat) : List Json → List String
  | [] => []
  | item :: rest => ("- " ++ writeAt (column + 2) item) :: writeItems column rest

/-- The fields of a mapping in a column. -/
def writeFields (column : Nat) : List (String × Json) → List String
  | [] => []
  | (key, value) :: rest =>
    let field :=
      if isSimpleKey key then
        let (between, start) := beforeValue column value
        String.ofList (writeText (column + 2) key) ++ ":" ++ between ++ writeAt start value
      else
        "? " ++ endLastLine (writeText (column + 2) key)
          ++ String.ofList (indentation column) ++ ": " ++ writeAt (column + 2) value
    field :: writeFields column rest

end

/-- A written value. -/
def write (value : Json) : String :=
  writeAt 0 value

end PojoGraph.Yaml
