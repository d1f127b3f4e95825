import PojoGraph.Proofs.Classification.Discovery

/-!
# What holds throughout a schema

A property of keywords holds throughout a schema if it holds of the keywords of the schema and of
all schemas inside it. It then holds throughout whatever classification finds there.

## Main definitions

* `Schema.Everywhere` — a property of keywords holds throughout a schema.

## Main statements

* `Schema.Everywhere.inline_iff` — it holds of the keywords, and throughout the schemas in them.
* `Schema.Everywhere.of_mem_discovered` — it holds throughout what is found.
-/

namespace PojoGraph

/-- The property holds of the keywords of the schema and of all schemas inside it. -/
def Schema.Everywhere (P : Keywords Schema → Prop) (schema : Schema) : Prop :=
  ∀ k, Relation.ReflTransGen Schema.IsChild (.inline k) schema → P k

namespace Schema.Everywhere

variable {P : Keywords Schema → Prop} {schema inner : Schema}

theorem of_inside (h : schema.Everywhere P) (hinside : inner.Inside schema) :
    inner.Everywhere P := by
  intro k hk
  exact h k (hk.trans hinside.to_reflTransGen)

theorem here {k : Keywords Schema} (h : Everywhere P (.inline k)) : P k :=
  h k .refl

theorem ref (target : String) : Everywhere P (.ref target) := by
  intro k hk
  rcases hk.cases_tail with heq | ⟨middle, -, hchild⟩
  · cases heq
  · obtain ⟨k', hk', -⟩ := hchild
    cases hk'

theorem inline_iff {k : Keywords Schema} : Everywhere P (.inline k)
    ↔ P k ∧ ∀ child ∈ k.children, child.Everywhere P := by
  constructor
  · intro h
    exact ⟨h.here, fun child hchild => h.of_inside (.single ⟨k, rfl, hchild⟩)⟩
  · rintro ⟨hhere, hchildren⟩ k' hk'
    rcases hk'.cases_tail with heq | ⟨middle, hmiddle, parent, hparent, hchild⟩
    · cases heq
      exact hhere
    · cases hparent
      exact hchildren middle hchild k' hmiddle

/-- A schema in which no other stands needs to be looked at alone. -/
theorem ofFacets {facets : Facets} (h : P { toFacets := facets }) :
    Everywhere P (.inline { toFacets := facets }) :=
  inline_iff.mpr ⟨h, fun _ hchild => (List.not_mem_nil hchild).elim⟩

/-- What holds everywhere in a schema holds everywhere in what is found in it. -/
theorem of_mem_discovered (h : schema.Everywhere P) (hmem : inner ∈ schema.discovered) :
    inner.Everywhere P := by
  cases hself : schema.findsItself with
  | true =>
    rw [Schema.discovered_of_findsItself hself, List.mem_singleton] at hmem
    exact hmem ▸ h
  | false => exact h.of_inside (Schema.inside_of_mem_discovered hself hmem)

end Schema.Everywhere

end PojoGraph
