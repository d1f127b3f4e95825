import PojoGraph.Text.Fold

/-!
# Patterns

A pattern describes texts: it leads from a position in a text to the positions at which a match
that begins there may end. Sets of positions are ascending lists.

## Main definitions

* `Pattern` — characters, assertions, sequences, alternatives and repetitions.
* `Pattern.ends` — the positions that matches lead to from a set of positions.
* `Pattern.isMatch` — whether a pattern matches anywhere in a text.
-/

namespace PojoGraph

/-- A set of characters. -/
abbrev CharSet := Char → Bool

/-- A condition on a position. -/
inductive Assertion where
  | textStart
  | textEnd
  | lineStart (withReturns : Bool)
  | lineEnd (withReturns : Bool)
  | wordBoundary (isWord : CharSet)
  | notWordBoundary (isWord : CharSet)
  | wordStart (isWord : CharSet)
  | wordEnd (isWord : CharSet)
  | wordStartHalf (isWord : CharSet)
  | wordEndHalf (isWord : CharSet)

namespace Assertion

/-- Whether the condition holds between the character before a position and the one after. -/
def holds (before after : Option Char) : Assertion → Bool
  | textStart => before.isNone
  | textEnd => after.isNone
  | lineStart false => before.all (· == '\n')
  | lineStart true =>
    before.all fun c => c == '\n' || (c == '\r' && after != some '\n')
  | lineEnd false => after.all (· == '\n')
  | lineEnd true =>
    after.all fun c => c == '\r' || (c == '\n' && before != some '\r')
  | wordBoundary isWord => before.any isWord != after.any isWord
  | notWordBoundary isWord => before.any isWord == after.any isWord
  | wordStart isWord => !before.any isWord && after.any isWord
  | wordEnd isWord => before.any isWord && !after.any isWord
  | wordStartHalf isWord => !before.any isWord
  | wordEndHalf isWord => !after.any isWord

end Assertion

/-- A pattern. -/
inductive Pattern where
  | empty
  | char (set : CharSet)
  | assertion (condition : Assertion)
  | sequence (first second : Pattern)
  | either (left right : Pattern)
  /-- At least `least` times, and at most `most` times if that is given. -/
  | repeated (pattern : Pattern) (least : Nat) (most : Option Nat)

namespace Pattern

/-- The union of two ascending lists. -/
def union : List Nat → List Nat → List Nat
  | [], right => right
  | left, [] => left
  | i :: left, j :: right =>
    if i < j then i :: union left (j :: right)
    else if j < i then j :: union (i :: left) right
    else i :: union left right

/-- Applies a function a number of times, or until it changes nothing. -/
def iterate (f : List Nat → List Nat) : Nat → List Nat → List Nat
  | 0, positions => positions
  | n + 1, positions =>
    let next := f positions
    if next == positions then positions else iterate f n next

/-- The positions at which matches end that begin at one of the given positions. Repetitions
beyond the number of positions in the text add nothing. -/
def ends (text : Array Char) : Pattern → List Nat → List Nat
  | empty, positions => positions
  | char set, positions => positions.filterMap fun i =>
      if text[i]?.any set then some (i + 1) else none
  | assertion condition, positions => positions.filter fun i =>
      condition.holds (if i = 0 then none else text[i - 1]?) text[i]?
  | sequence first second, positions => second.ends text (first.ends text positions)
  | either left right, positions => union (left.ends text positions) (right.ends text positions)
  | repeated pattern least most, positions =>
    let bound := text.size + 1
    let required := iterate (pattern.ends text) (min least bound) positions
    let further := match most with
      | none => bound
      | some n => min (n - least) bound
    iterate (fun reached => union reached (pattern.ends text reached)) further required

/-- Whether the pattern matches anywhere in a text. -/
def isMatch (pattern : Pattern) (text : String) : Bool :=
  let chars := text.toList.toArray
  !(pattern.ends chars (List.range (chars.size + 1))).isEmpty

end Pattern

end PojoGraph
