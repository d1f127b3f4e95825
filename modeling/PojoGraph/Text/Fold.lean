import PojoGraph.Text.CaseMap

/-!
# Characters that differ in case only

Two characters count as the same up to case when their case-folded forms agree. The form is the
lower-case character of the upper-case one, where both are single characters.

## Main definitions

* `foldChar` — the case-folded form of a character.
* `caseVariants` — the characters that are the same up to case.
* `isWord` — the characters that words are made of.
-/

namespace PojoGraph.Text

/-- The single character among the given ones, or `c` where there are more. -/
def singleOr (c : Char) : List Char → Char
  | [d] => d
  | _ => c

/-- The case-folded form. The dotless i stays apart from the plain one, whose capital it
shares. -/
def foldChar (c : Char) : Char :=
  if c == 'ı' then c
  else
    let upper := singleOr c (upperChar c)
    singleOr upper (lowerChar upper)

/-- The code points that a list of runs maps to `n`. -/
def preimages (runs : List CaseRun) (n : Nat) : List Nat :=
  runs.filterMap fun run =>
    let m := ((n : Int) - run.offset).toNat
    if run.first ≤ m && m ≤ run.last && (m - run.first) % run.step == 0 then some m else none

/-- The characters that are the same as `c` up to case, `c` among them. -/
def caseVariants (c : Char) : List Char :=
  let folded := foldChar c
  let uppers := folded :: folded.toUpper :: (preimages lowerRuns folded.toNat).map Char.ofNat
  let lowers := uppers.flatMap fun u =>
    u :: u.toLower :: (preimages upperRuns u.toNat).map Char.ofNat
  (c :: lowers).filter (foldChar · == folded)

/-- The characters that words are made of: letters, marks, decimal digits, connecting
punctuation, and the two characters that control joining. -/
def isWord (c : Char) : Bool :=
  if isAscii c then c.isAlphanum || c == '_'
  else isAlphabetic c || (category c).isMark || category c == .nd || category c == .pc
    || c.toNat == 0x200C || c.toNat == 0x200D

end PojoGraph.Text
