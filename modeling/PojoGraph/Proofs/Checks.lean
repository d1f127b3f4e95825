import PojoGraph.Pojo.Basic

/-!
# Checks of results

What one run comes to is computed, and so is a check of it. A check that holds shows more than that
it holds: the run succeeds, and its result is one that passes.

## Main statements

* `exists_ok_of_any_toOption` — a computation whose result passes a check succeeds.
* `exists_object_of_any` — an object that passes a check is one of the pojos.
-/

namespace PojoGraph

/-- A computation that is checked has a result, which passes. -/
theorem exists_ok_of_any_toOption {ε α : Type} {result : Except ε α} {p : α → Bool}
    (h : result.toOption.any p = true) : ∃ a, result = .ok a ∧ p a = true := by
  cases result with
  | error e => cases h
  | ok a => exact ⟨a, rfl, h⟩

/-- Objects that are checked among pojos are pojos of the list, and one passes. -/
theorem exists_object_of_any {pojos : List Pojo} {p : ObjectPojo → Bool}
    (h : (pojos.filterMap (·.object?)).any p = true) :
    ∃ object, .object object ∈ pojos ∧ p object = true := by
  obtain ⟨object, hobject, hp⟩ := List.any_eq_true.mp h
  obtain ⟨pojo, hpojo, heq⟩ := List.mem_filterMap.mp hobject
  cases pojo with
  | object original =>
    obtain rfl := Option.some.inj heq
    exact ⟨original, hpojo, hp⟩
  | _ => cases heq

end PojoGraph
