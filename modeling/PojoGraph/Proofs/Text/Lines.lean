import Mathlib.Data.List.DropRight
import PojoGraph.Text.Edit

/-!
# Lines and their ends

A text made of rows has these rows for its lines, up to the blanks around them: what ends a row is
not part of it, and what is left of a line end is blank.

## Main definitions

* `IsTrimmed` — no blank stands at either end.
* `HasLines` — a text whose lines are given.

## Main statements

* `HasLines.map_trim_lines` — the lines of such a text, trimmed.
* `trim_append_blanks` — blanks at the end do not count.
* `splitOnce_eq_some_iff` — a text is cut where the separator stands first.
-/

namespace PojoGraph.Text

variable {p : Char → Bool} {before cs after : List Char} {c : Char}

/-! ## Dropped ends -/

theorem dropWhileEnd_eq_rdropWhile (p : Char → Bool) (cs : List Char) :
    dropWhileEnd p cs = cs.rdropWhile p := rfl

/-- What is dropped at an end all satisfies the condition. -/
theorem dropWhileEnd_append_of_forall (h : ∀ c ∈ after, p c = true) :
    dropWhileEnd p (cs ++ after) = dropWhileEnd p cs := by
  rw [dropWhileEnd, List.reverse_append, List.dropWhile_append_of_pos (by simpa using h)]
  rfl

/-- Nothing is dropped before a character that does not satisfy the condition. -/
theorem dropWhileEnd_append_cons (h : p c = false) :
    dropWhileEnd p (before ++ c :: after) = before ++ c :: dropWhileEnd p after := by
  simp only [dropWhileEnd, List.reverse_append, List.reverse_cons, List.append_assoc,
    List.dropWhile_append, List.singleton_append]
  split
  · rename_i hempty
    simp [List.isEmpty_iff.mp hempty, h]
  · simp

theorem dropWhileEnd_eq_self (h : ∀ c ∈ cs.getLast?, p c = false) : dropWhileEnd p cs = cs := by
  rw [dropWhileEnd_eq_rdropWhile, List.rdropWhile_eq_self_iff]
  intro hne
  simp [h _ (List.getLast_mem_getLast? hne)]

theorem dropWhile_eq_self (h : ∀ c ∈ cs.head?, p c = false) : cs.dropWhile p = cs := by
  cases cs with
  | nil => rfl
  | cons c rest => simp [h c rfl]

theorem trimWhile_eq_self (hhead : ∀ c ∈ cs.head?, p c = false)
    (hlast : ∀ c ∈ cs.getLast?, p c = false) : trimWhile p cs = cs := by
  rw [trimWhile, dropWhile_eq_self hhead, dropWhileEnd_eq_self hlast]

/-! ## Trimmed texts -/

theorem isBlank_space : isBlank ' ' = true := by decide +kernel

theorem isBlank_colon : isBlank ':' = false := by decide +kernel

theorem isBlank_dash : isBlank '-' = false := by decide +kernel

theorem isBlank_return : isBlank '\r' = true := by decide +kernel

/-- Blanks at the end of a text do not change what is left of it. -/
theorem trim_append_blanks (h : ∀ c ∈ after, isBlank c = true) :
    trim (cs ++ after) = trim cs := by
  rw [trim, trim, trimWhile, trimWhile, List.dropWhile_append]
  split
  · rename_i hempty
    rw [List.isEmpty_iff.mp hempty, List.dropWhile_eq_nil_iff.mpr h]
  · exact dropWhileEnd_append_of_forall h

/-- Nor do blanks at its beginning. -/
theorem trim_blank_cons (h : isBlank c = true) : trim (c :: cs) = trim cs := by
  simp [trim, trimWhile, h]

theorem trim_dropWhileEnd (cs : List Char) : trim (dropWhileEnd isBlank cs) = trim cs := by
  conv_rhs => rw [← List.rdropWhile_append_rtakeWhile (p := isBlank) (l := cs)]
  exact (trim_append_blanks fun c hc => List.mem_rtakeWhile_imp hc).symm

/-- No blank stands at either end of the text. -/
structure IsTrimmed (cs : List Char) : Prop where
  head : ∀ c ∈ cs.head?, isBlank c = false
  last : ∀ c ∈ cs.getLast?, isBlank c = false

instance (cs : List Char) : Decidable (IsTrimmed cs) :=
  decidable_of_iff (cs.head?.all (!isBlank ·) = true ∧ cs.getLast?.all (!isBlank ·) = true) <| by
    simp only [Option.all_eq_true, Bool.not_eq_true']
    exact ⟨fun h => ⟨h.1, h.2⟩, fun h => ⟨h.head, h.last⟩⟩

theorem IsTrimmed.trim_eq (h : IsTrimmed cs) : trim cs = cs :=
  trimWhile_eq_self h.head h.last

/-! ## Cuts -/

/-- A text is cut at the first separator. -/
theorem splitOnce_append (h : c ∉ before) :
    splitOnce c (before ++ c :: after) = some (before, after) := by
  induction before with
  | nil => simp [splitOnce]
  | cons b rest ih =>
    rw [List.mem_cons, not_or] at h
    simp [splitOnce, Ne.symm h.1, ih h.2]

/-- **A text is cut where the separator stands first**, and nothing else of it is lost. -/
theorem splitOnce_eq_some_iff :
    splitOnce c cs = some (before, after) ↔ cs = before ++ c :: after ∧ c ∉ before := by
  constructor
  · intro h
    induction cs generalizing before with
    | nil => cases h
    | cons b rest ih =>
      rw [splitOnce] at h
      split at h
      · rename_i hb
        cases h
        exact ⟨by rw [hb, List.nil_append], List.not_mem_nil⟩
      · rename_i hb
        obtain ⟨⟨before', after'⟩, hcut, hpair⟩ := Option.map_eq_some_iff.mp h
        cases hpair
        obtain ⟨rfl, hnot⟩ := ih hcut
        exact ⟨rfl, by simp [Ne.symm hb, hnot]⟩
  · rintro ⟨rfl, h⟩
    exact splitOnce_append h

theorem stripLead_append (lead rest : List Char) : stripLead lead (lead ++ rest) = some rest := by
  simp [stripLead]

/-- Trimming keeps no characters that were not there. -/
theorem mem_of_mem_trimWhile (h : c ∈ trimWhile p cs) : c ∈ cs := by
  rw [trimWhile, dropWhileEnd_eq_rdropWhile] at h
  exact (List.dropWhile_sublist p).mem ((List.rdropWhile_prefix p _).sublist.mem h)

/-! ## Lines -/

/-- The rows are the lines of the text: each has a line end of either kind behind it, which the
last one may lack. -/
inductive HasLines : List (List Char) → List Char → Prop where
  | nil : HasLines [] []
  | last {row : List Char} (hrow : row ≠ []) : HasLines [row] row
  | feed {row text : List Char} {rows : List (List Char)} (hrest : HasLines rows text) :
    HasLines (row :: rows) (row ++ '\n' :: text)
  | returnFeed {row text : List Char} {rows : List (List Char)} (hrest : HasLines rows text) :
    HasLines (row :: rows) (row ++ '\r' :: '\n' :: text)

/-- The line end of which a line is freed is blank. -/
theorem trim_chomp (cs : List Char) : trim (chomp cs) = trim cs := by
  rw [chomp]
  split
  · rename_i rest hreverse
    have hcs : cs = rest.reverse ++ ['\r'] := by
      rw [← List.reverse_reverse cs, hreverse, List.reverse_cons]
    rw [hcs]
    exact (trim_append_blanks (by simp [isBlank_return])).symm
  · rfl

theorem splitOnP_of_not_mem {row : List Char} (h : '\n' ∉ row) :
    row.splitOnP (· == '\n') = [row] :=
  List.splitOnP_eq_singleton fun _ hc => beq_eq_false_iff_ne.mpr (ne_of_mem_of_not_mem hc h)

/-- The first line of a text is what stands before the first line feed. -/
theorem lines_append_feed {row text : List Char} (h : '\n' ∉ row) :
    lines (row ++ '\n' :: text) = chomp row :: lines text := by
  have hrow : ∀ c ∈ row, (c == '\n') = false := fun c hc =>
    beq_eq_false_iff_ne.mpr (ne_of_mem_of_not_mem hc h)
  have hne : text.splitOnP (· == '\n') ≠ [] := List.splitOnP_ne_nil _ text
  have hlast : (text.splitOnP (· == '\n')).getLast?
      = some ((text.splitOnP (· == '\n')).getLast hne) := List.getLast?_eq_some_getLast hne
  rw [lines, List.splitOnP_append_cons_of_forall_mem hrow '\n' rfl]
  simp only [lines, List.getLast?_cons_of_ne_nil hne, hlast, List.dropLast_cons_of_ne_nil hne,
    List.map_cons, List.cons_append]

/-- **The lines of a text are its rows**, up to blanks. -/
theorem HasLines.map_trim_lines {rows : List (List Char)} {text : List Char}
    (h : HasLines rows text) (hrows : ∀ row ∈ rows, '\n' ∉ row) :
    (lines text).map trim = rows.map trim := by
  induction h with
  | nil => rfl
  | last hrow =>
    have hfeed := hrows _ List.mem_cons_self
    simp [lines, splitOnP_of_not_mem hfeed, hrow]
  | feed hrest ih =>
    have hfeed := hrows _ List.mem_cons_self
    rw [lines_append_feed hfeed, List.map_cons, List.map_cons, trim_chomp,
      ih fun row hrow => hrows row (List.mem_cons_of_mem _ hrow)]
  | @returnFeed row text rows hrest ih =>
    have hfeed : '\n' ∉ row ++ ['\r'] := by
      simpa using hrows _ List.mem_cons_self
    have hends : row ++ '\r' :: '\n' :: text = (row ++ ['\r']) ++ '\n' :: text := by simp
    have hreturn : ∀ c ∈ ['\r'], isBlank c = true := by simp [isBlank_return]
    rw [hends, lines_append_feed hfeed, List.map_cons, List.map_cons, trim_chomp,
      trim_append_blanks hreturn, ih fun row hrow => hrows row (List.mem_cons_of_mem _ hrow)]

end PojoGraph.Text
