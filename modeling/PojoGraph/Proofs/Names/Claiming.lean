import Mathlib.Data.List.Induction
import PojoGraph.Proofs.Names.Numbering

/-!
# Names claimed in order

When names are claimed one after the other, a key that was free before gets taken by the first
name that has it, or by a number: where a name is taken already, its numbered forms are tried in
turn, and one of them may have a key that nobody asked for.

## Main definitions

* `Registry.Numbers` — a name that is taken gets the given key by a number.

## Main statements

* `Registry.key_choose_eq_iff` — how a name gets a key.
* `Registry.mem_keys_claimAll_iff` — the keys that a list of names gets.
-/

namespace PojoGraph

namespace Registry

variable {registry : Registry} {name : PojoName} {key : String}

/-- The name is taken, and the first of its numbered forms that is free has the given key. -/
def Numbers (registry : Registry) (name : PojoName) (key : String) : Prop :=
  name.key ∈ registry.keys ∧ ∃ number, 2 ≤ number ∧ (name.numbered number).key = key
    ∧ key ∉ registry.keys
    ∧ ∀ lower, 2 ≤ lower → lower < number → (name.numbered lower).key ∈ registry.keys

theorem isFree_iff : registry.isFree name = true ↔ name.key ∉ registry.keys := by
  simp [isFree]

/-- The name that is chosen for a taken one has the first number that frees it. -/
theorem exists_number_of_choose (h : name.key ∈ registry.keys) :
    ∃ number, 2 ≤ number ∧ registry.choose name = name.numbered number
      ∧ ∀ lower, 2 ≤ lower → lower < number → (name.numbered lower).key ∈ registry.keys := by
  have htaken : ¬ registry.isFree name = true := by simpa [isFree] using h
  cases hfind : registry.candidates.find? fun number => registry.isFree (name.numbered number) with
  | none =>
    obtain ⟨number, hnumber, hfree⟩ := registry.exists_free_candidate name
    exact absurd hfree (by simpa using List.find?_eq_none.mp hfind number hnumber)
  | some number =>
    obtain ⟨-, i, hi, hnumber, hbefore⟩ := List.find?_eq_some_iff_getElem.mp hfind
    have hat : number = 2 + i := by simpa [candidates] using hnumber.symm
    refine ⟨number, by omega, by rw [choose, if_neg htaken, hfind], ?_⟩
    intro lower hlower hlt
    have hskipped := hbefore (lower - 2) (by omega)
    have hindex : registry.candidates[lower - 2] = lower := by
      simp only [candidates, List.getElem_range']
      omega
    rw [hindex] at hskipped
    simpa [isFree] using hskipped

/-- **A name gets a key if it has that key and is free, or if a number gives it the key.** -/
theorem key_choose_eq_iff :
    (registry.choose name).key = key
      ↔ name.key ∉ registry.keys ∧ name.key = key ∨ registry.Numbers name key := by
  by_cases htaken : name.key ∈ registry.keys
  · obtain ⟨number, hle, hchoose, hlower⟩ := exists_number_of_choose htaken
    have hfree : (name.numbered number).key ∉ registry.keys := by
      rw [← hchoose]
      exact registry.key_choose_not_mem name
    simp only [htaken, not_true_eq_false, false_and, false_or]
    constructor
    · rintro rfl
      exact ⟨htaken, number, hle, by rw [hchoose], by rwa [hchoose], hlower⟩
    · rintro ⟨-, other, hother, rfl, hnew, hbefore⟩
      -- neither number is below the other, whose form would be taken
      have hsame : number = other := by
        rcases Nat.lt_trichotomy number other with hlt | heq | hgt
        · exact absurd (hbefore number hle hlt) hfree
        · exact heq
        · exact absurd (hlower other hother hgt) hnew
      rw [hchoose, hsame]
  · rw [choose_of_isFree (isFree_iff.mpr htaken)]
    constructor
    · intro hkey
      exact .inl ⟨htaken, hkey⟩
    · rintro (⟨-, hkey⟩ | ⟨hmem, -⟩)
      · exact hkey
      · exact absurd hmem htaken

/-! ## Lists of names -/

theorem claimAll_append (registry : Registry) (names others : List PojoName) :
    registry.claimAll (names ++ others)
      = ((registry.claimAll names).1 ++ ((registry.claimAll names).2.claimAll others).1,
        ((registry.claimAll names).2.claimAll others).2) := by
  induction names generalizing registry with
  | nil => rfl
  | cons name rest ih => simp only [List.cons_append, claimAll, ih]

theorem keys_claimAll (registry : Registry) (names : List PojoName) :
    (registry.claimAll names).2.keys
      = ((registry.claimAll names).1.map (·.key)).reverse ++ registry.keys := by
  induction names generalizing registry with
  | nil => rfl
  | cons name rest ih => simp [claimAll, ih]

/-- A key is got by the name that stands at some place of the list. -/
theorem mem_claimAll_iff (registry : Registry) (names : List PojoName) :
    key ∈ (registry.claimAll names).1.map (·.key)
      ↔ ∃ before name after, names = before ++ name :: after
        ∧ ((registry.claimAll before).2.choose name).key = key := by
  induction names using List.reverseRecOn with
  | nil => simp [claimAll]
  | append_singleton names last ih =>
    have hlast : (registry.claimAll (names ++ [last])).1
        = (registry.claimAll names).1 ++ [(registry.claimAll names).2.choose last] := by
      rw [claimAll_append]
      rfl
    rw [hlast, List.map_append, List.mem_append, ih]
    constructor
    · rintro (⟨before, name, after, rfl, hkey⟩ | hkey)
      · exact ⟨before, name, after ++ [last], by simp, hkey⟩
      · exact ⟨names, last, [], rfl, (List.mem_singleton.mp hkey).symm⟩
    · rintro ⟨before, name, after, hnames, hkey⟩
      rcases List.eq_nil_or_concat after with rfl | ⟨after, other, rfl⟩
      · obtain ⟨rfl, hname⟩ := List.append_inj' hnames rfl
        cases hname
        exact .inr (by simp [hkey])
      · rw [List.concat_eq_append, ← List.cons_append, ← List.append_assoc] at hnames
        obtain ⟨rfl, -⟩ := List.append_inj' hnames rfl
        exact .inl ⟨before, name, after, rfl, hkey⟩

/-- **The keys that a list of names gets**, of those that were free: the keys of the names
themselves, and those that numbers give to names taken by then. -/
theorem mem_keys_claimAll_iff {names : List PojoName} (hfree : key ∉ registry.keys) :
    key ∈ (registry.claimAll names).1.map (·.key)
      ↔ (∃ name ∈ names, name.key = key)
        ∨ ∃ before name after, names = before ++ name :: after
          ∧ (registry.claimAll before).2.Numbers name key := by
  rw [mem_claimAll_iff]
  constructor
  · rintro ⟨before, name, after, rfl, hkey⟩
    rcases key_choose_eq_iff.mp hkey with ⟨-, hname⟩ | hnumbers
    · exact .inl ⟨name, by simp, hname⟩
    · exact .inr ⟨before, name, after, rfl, hnumbers⟩
  · rintro (⟨name, hname, hkey⟩ | ⟨before, name, after, hnames, hnumbers⟩)
    · obtain ⟨before, after, rfl⟩ := List.append_of_mem hname
      by_cases htaken : name.key ∈ (registry.claimAll before).2.keys
      -- the key is taken by then, and was not at first: a name before has got it
      · rw [keys_claimAll, List.mem_append, List.mem_reverse, hkey] at htaken
        obtain ⟨first, other, rest, rfl, hother⟩ :=
          (registry.mem_claimAll_iff before).mp (htaken.resolve_right hfree)
        exact ⟨first, other, rest ++ name :: after, by simp, hother⟩
      · exact ⟨before, name, after, rfl, key_choose_eq_iff.mpr (.inl ⟨htaken, hkey⟩)⟩
    · exact ⟨before, name, after, hnames, key_choose_eq_iff.mpr (.inr hnumbers)⟩

end Registry

end PojoGraph
