import Mathlib.Data.List.Perm.Basic
import PojoGraph.Proofs.Resolution.Rounds

/-!
# Resolution in another order

A round asks its table only for what names lead to. Where the keys of a table are different, this
does not depend on the order of the entries, so that a round makes the same of each stub in
whatever order the table is; the tables after the round are again the same up to order.

## Main statements

* `ClassTable.lead_of_perm`, `ClassTable.outcome_of_perm` — a round makes the same of each stub.
* `ClassTable.settle_of_perm` — all rounds make the same of each entry.
-/

namespace PojoGraph

theorem Dictionary.lookup?_of_perm {α : Type} {entries entries' : Dictionary α}
    (h : entries.Perm entries') (hnodup : entries.keys.Nodup) (key : String) :
    entries.lookup? key = entries'.lookup? key := by
  have hnodup' : entries'.keys.Nodup := (h.map _).nodup_iff.mp hnodup
  ext value
  rw [lookup?_eq_some_iff hnodup, lookup?_eq_some_iff hnodup', h.mem_iff]

namespace ClassTable

variable {table table' : ClassTable} (h : table.Perm table')
  (hnodup : (Dictionary.keys table).Nodup)

include h hnodup

/-! ## One round -/

/-- **Where a name leads does not depend on the order of entries.** -/
theorem lead_of_perm : table.lead = table'.lead := by
  have hfrom : ∀ steps key, table.leadFrom steps key = table'.leadFrom steps key := by
    intro steps
    induction steps with
    | zero => intro key; rfl
    | succ steps ih =>
      intro key
      simp only [leadFrom, ← Dictionary.lookup?_of_perm h hnodup key, ih]
  funext name
  rw [lead, lead, hfrom, h.length_eq]

theorem outcome_of_perm : table.outcome = table'.outcome := by
  funext stub
  simp only [outcome, invalidBranches, missing, branchesOf, objectsOf, lead_of_perm h hnodup]

theorem advance_of_perm : table.advance.Perm table'.advance := by
  have hentry : table.advanceEntry = table'.advanceEntry := by
    funext classified
    simp only [advanceEntry, outcome_of_perm h hnodup]
  rw [advance, advance, hentry]
  exact h.map _

omit hnodup in
theorem stubs_of_perm : table.stubs.Perm table'.stubs :=
  h.filterMap _

theorem canAdvance_of_perm : table.canAdvance = table'.canAdvance := by
  have hresolvable : table.isResolvable = table'.isResolvable := by
    funext stub
    simp only [isResolvable, outcome_of_perm h hnodup]
  rw [canAdvance, canAdvance, hresolvable]
  exact (stubs_of_perm h).any_eq

theorem faults_of_perm : table.faults.Perm table'.faults := by
  rw [faults, faults, outcome_of_perm h hnodup]
  exact (stubs_of_perm h).flatMap_right _

omit hnodup in
theorem entries_of_perm : table.entries.Perm table'.entries :=
  h.filterMap _

/-! ## All rounds -/

theorem verdict?_of_perm_eq_none (hverdict : table.verdict? = none) :
    table'.verdict? = none := by
  obtain ⟨hstubs, hfaults, hadvance⟩ := verdict?_eq_none_iff.mp hverdict
  refine verdict?_eq_none_iff.mpr ⟨?_, ?_, ?_⟩
  · intro hnone
    exact hstubs (hnone ▸ stubs_of_perm h).eq_nil
  · exact (hfaults ▸ (faults_of_perm h hnodup).symm).eq_nil
  · rw [← canAdvance_of_perm h hnodup, hadvance]

omit hnodup in
theorem verdict?_of_perm_eq_ok {entries : List Resolved}
    (hverdict : table.verdict? = some (.ok entries)) :
    ∃ entries', table'.verdict? = some (.ok entries') ∧ entries.Perm entries' := by
  rcases verdict?_cases hverdict with ⟨hstubs, hresult⟩ | ⟨failure, -, hresult⟩ | ⟨-, -, -, hresult⟩
  · cases hresult
    have hnone := stubs_of_perm h
    rw [hstubs] at hnone
    refine ⟨table'.entries, ?_, entries_of_perm h⟩
    rw [verdict?, hnone.nil_eq.symm]
    rfl
  · cases hresult
  · cases hresult

/-- **All rounds make the same of each entry**, in whatever order the table is. -/
theorem settle_of_perm {number : Nat} {entries : List Resolved}
    (hsettle : (table.settle number).2 = .ok entries) :
    ∃ entries', (table'.settle number).2 = .ok entries' ∧ entries.Perm entries' := by
  induction hn : table.stubs.length using Nat.strongRecOn generalizing table table' number with
  | _ n ih =>
    rw [snd_settle] at hsettle ⊢
    cases hverdict : table.verdict? with
    | some result =>
      rw [hverdict] at hsettle
      obtain rfl : result = .ok entries := hsettle
      obtain ⟨entries', hverdict', hperm⟩ := verdict?_of_perm_eq_ok h hverdict
      exact ⟨entries', by rw [hverdict']; rfl, hperm⟩
    | none =>
      rw [hverdict] at hsettle
      rw [verdict?_of_perm_eq_none h hnodup hverdict]
      have hlt : table.advance.stubs.length < n :=
        hn ▸ length_stubs_advance_lt table (canAdvance_of_verdict?_eq_none hverdict)
      have hkeys : Dictionary.keys table.advance = Dictionary.keys table := by
        simp [advance, Dictionary.keys]
      exact ih _ hlt (advance_of_perm h hnodup) (hkeys ▸ hnodup) hsettle rfl

end ClassTable

end PojoGraph
