import PojoGraph.Name

/-!
# Names taken in a run

Every generated type needs a name of its own. The registry holds the keys taken so far; a name
whose key is taken gets the first number, from two on, that frees it.

## Main definitions

* `Registry` — the keys taken.
* `Registry.claim` — takes a name, or the first free numbered form of it.
-/

namespace PojoGraph

/-- The keys of the names taken in a run. -/
structure Registry where
  keys : List String := []
  deriving Repr, Inhabited

namespace Registry

/-- Whether no name with this key has been taken. -/
def isFree (registry : Registry) (name : PojoName) : Bool :=
  !registry.keys.contains name.key

/-- The numbers tried for a taken name. One more than there are keys: if all numbered forms
have different keys, one of them is free. -/
def candidates (registry : Registry) : List Nat :=
  List.range' 2 (registry.keys.length + 1)

/-- The name itself if it is free, otherwise its first free numbered form. -/
def choose (registry : Registry) (name : PojoName) : PojoName :=
  if registry.isFree name then name
  else match registry.candidates.find? fun number => registry.isFree (name.numbered number) with
    | some number => name.numbered number
    | none => name.numbered (registry.keys.length + 3)

/-- The chosen name, and the registry in which it is taken. -/
def claim (registry : Registry) (name : PojoName) : PojoName × Registry :=
  let chosen := registry.choose name
  (chosen, ⟨chosen.key :: registry.keys⟩)

/-- Claims a list of names in order. -/
def claimAll (registry : Registry) : List PojoName → List PojoName × Registry
  | [] => ([], registry)
  | name :: rest =>
    let (chosen, registry) := registry.claim name
    let (others, registry) := registry.claimAll rest
    (chosen :: others, registry)

/-- A free name is taken as it is. -/
theorem choose_of_isFree {registry : Registry} {name : PojoName} (h : registry.isFree name) :
    registry.choose name = name := by
  simp [choose, h]

@[simp] theorem keys_claim (registry : Registry) (name : PojoName) :
    (registry.claim name).2.keys = (registry.choose name).key :: registry.keys := rfl

@[simp] theorem fst_claim (registry : Registry) (name : PojoName) :
    (registry.claim name).1 = registry.choose name := rfl

end Registry

end PojoGraph
