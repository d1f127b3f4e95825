import PojoGraph.Proofs.Names.Claiming

/-!
# The search for a free name

A name that is taken is tried with one number after the other, from two on, until a number frees
it. The search has no bound of its own. It ends because numbered forms of a name have different
keys: not all of the first numbers can be taken, however many names the registry has. Where it ends
is where the bounded search of `Registry.choose` ends.

## Main definitions

* `Registry.Searches` — the trial of the numbers from one on.
* `Registry.Takes` — a name taken as it is, or by a number that the search ends with.

## Main statements

* `Registry.searches_iff` — the search ends with the first number that frees the name.
* `Registry.takes_iff` — it ends for each name, with the name that is chosen.
* `Registry.claim_takes_first_free` — what is claimed, and what the registry holds afterwards.
-/

namespace PojoGraph

namespace Registry

variable {registry : Registry} {name chosen other : PojoName} {start : Nat}

/-- The numbers from `start` on are tried in turn, and the first that frees the name makes the
chosen one. -/
inductive Searches (registry : Registry) (name : PojoName) : (start : Nat) → PojoName → Prop where
  | free {number : Nat} (h : (name.numbered number).key ∉ registry.keys) :
    Searches registry name number (name.numbered number)
  | taken {number : Nat} {chosen : PojoName} (h : (name.numbered number).key ∈ registry.keys)
      (hnext : Searches registry name (number + 1) chosen) :
    Searches registry name number chosen

/-- The name is taken as it is if its key is free, else as the search from two on has it. -/
inductive Takes (registry : Registry) (name : PojoName) : PojoName → Prop where
  | free (h : name.key ∉ registry.keys) : Takes registry name name
  | numbered {chosen : PojoName} (h : name.key ∈ registry.keys)
      (hsearch : registry.Searches name 2 chosen) :
    Takes registry name chosen

/-- A search has one end. -/
theorem Searches.unique (h : registry.Searches name start chosen)
    (h' : registry.Searches name start other) : chosen = other := by
  induction h with
  | free hfree =>
    cases h' with
    | free => rfl
    | taken htaken => exact absurd htaken hfree
  | taken htaken _ ih =>
    cases h' with
    | free hfree => exact absurd htaken hfree
    | taken _ hnext => exact ih hnext

/-- Where all numbers below one are taken, the search gets there. -/
theorem Searches.skip {number : Nat} (hle : start ≤ number)
    (hlower : ∀ lower, start ≤ lower → lower < number → (name.numbered lower).key ∈ registry.keys)
    (h : registry.Searches name number chosen) : registry.Searches name start chosen := by
  induction hle with
  | refl => exact h
  | @step number hle ih =>
    refine ih (fun lower hstart hlt => hlower lower hstart (by omega)) (.taken ?_ h)
    exact hlower number hle (Nat.lt_succ_self number)

/-- **The search ends with the first number that frees the name**, and only there. -/
theorem searches_iff : registry.Searches name start chosen
    ↔ ∃ number, start ≤ number ∧ chosen = name.numbered number ∧ chosen.key ∉ registry.keys
      ∧ ∀ lower, start ≤ lower → lower < number → (name.numbered lower).key ∈ registry.keys := by
  constructor
  · intro h
    induction h with
    | @free number hfree => exact ⟨number, Nat.le_refl number, rfl, hfree, fun lower hle hlt => by omega⟩
    | @taken start chosen htaken _ ih =>
      obtain ⟨number, hle, hchosen, hfree, hlower⟩ := ih
      refine ⟨number, by omega, hchosen, hfree, fun lower hstart hlt => ?_⟩
      rcases Nat.eq_or_lt_of_le hstart with rfl | hnext
      · exact htaken
      · exact hlower lower hnext hlt
  · rintro ⟨number, hle, rfl, hfree, hlower⟩
    exact .skip hle hlower (.free hfree)

/-- **A claim comes to an end for each name**, and to the name that is chosen. -/
theorem takes_iff : registry.Takes name chosen ↔ registry.choose name = chosen := by
  by_cases htaken : name.key ∈ registry.keys
  · obtain ⟨number, hle, hchoose, hlower⟩ := exists_number_of_choose htaken
    have hfree : (registry.choose name).key ∉ registry.keys := registry.key_choose_not_mem name
    have hends : registry.Searches name 2 (registry.choose name) :=
      searches_iff.mpr ⟨number, hle, hchoose, hfree, hlower⟩
    constructor
    · intro h
      cases h with
      | free hnew => exact absurd htaken hnew
      | numbered _ hsearch => exact hends.unique hsearch
    · rintro rfl
      exact .numbered htaken hends
  · rw [choose_of_isFree (isFree_iff.mpr htaken)]
    constructor
    · intro h
      cases h with
      | free => rfl
      | numbered hmem => exact absurd hmem htaken
    · rintro rfl
      exact .free htaken

/-- **A claim takes the first name that is free.** It comes to an end, and to one name only, whose
key is new: the name itself if its key is free, else the schema key followed by the least number
from two on that frees it, under the same suffix; there are no more numbers to be tried than keys
in the registry, and one. The registry then holds the key of the name in addition to those it has
held, and no other. -/
theorem claim_takes_first_free (registry : Registry) (name : PojoName) :
    (∀ chosen, registry.Takes name chosen ↔ (registry.claim name).1 = chosen)
      ∧ (registry.claim name).1.key ∉ registry.keys
      ∧ (name.key ∉ registry.keys ∧ (registry.claim name).1 = name
        ∨ name.key ∈ registry.keys ∧ ∃ number, 2 ≤ number ∧ number ≤ registry.keys.length + 2
          ∧ (registry.claim name).1 = ⟨name.raw ++ toString number, name.suffix⟩
          ∧ ∀ lower, 2 ≤ lower → lower < number →
            (PojoName.mk (name.raw ++ toString lower) name.suffix).key ∈ registry.keys)
      ∧ ∀ key, key ∈ (registry.claim name).2.keys
        ↔ key ∈ registry.keys ∨ key = (registry.claim name).1.key := by
  rw [fst_claim, keys_claim]
  refine ⟨fun chosen => takes_iff, registry.key_choose_not_mem name, ?_, fun key => ?_⟩
  · by_cases htaken : name.key ∈ registry.keys
    · obtain ⟨number, hle, hchoose, hlower⟩ := exists_number_of_choose htaken
      exact .inr ⟨htaken, number, hle, le_of_taken hlower, hchoose, hlower⟩
    · exact .inl ⟨htaken, choose_of_isFree (isFree_iff.mpr htaken)⟩
  · rw [List.mem_cons, or_comm]

end Registry

end PojoGraph
