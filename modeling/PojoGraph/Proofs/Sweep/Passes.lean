import PojoGraph.Proofs.Classification.Discovery
import PojoGraph.Sweep

/-!
# Passes of the sweep

The schemas that wait after a pass are those discovered in the schemas that waited before it,
and faults make no difference. So the sweep is a walk over schemas alone. As long as no schema
finds itself, each pass goes one level further into the given schemas, and the walk ends; a
schema that finds itself is found by every later pass.

## Main definitions

* `Sweep.schemas` — the schemas that wait.
* `Schema.Finds` — classification of one schema finds the other.
* `Schema.IsExhaustible` — no schema that is found in the schema finds itself.

## Main statements

* `Sweep.schemas_after_succ` — what waits after one more pass.
* `Sweep.pending_after_eq_nil` — exhaustible schemas are swept up in as many passes as there
  are nodes.
* `Sweep.finds_after_of_reaches` — a schema that finds itself waits forever.
* `Sweep.empties_iff_exhaustible` — the sweep ends if and only if its roots are exhaustible.
-/

namespace PojoGraph

/-! ## Schemas that find themselves -/

namespace Schema

/-- Classification of the first schema finds the second. -/
def Finds (outer inner : Schema) : Prop :=
  inner ∈ outer.discovered

/-- No schema that is found in the schema, at any remove, finds itself. -/
def IsExhaustible (schema : Schema) : Prop :=
  ∀ inner, Relation.ReflTransGen Finds schema inner → inner.findsItself = false

theorem IsExhaustible.of_finds {outer inner : Schema} (h : outer.IsExhaustible)
    (hfinds : outer.Finds inner) : inner.IsExhaustible := by
  intro deeper hreach
  exact h deeper (.head hfinds hreach)

/-- What is found in an exhaustible schema is smaller. -/
theorem IsExhaustible.size_lt {outer inner : Schema} (h : outer.IsExhaustible)
    (hfinds : outer.Finds inner) : inner.size < outer.size := by
  have hself : outer.findsItself = false := h outer .refl
  exact size_lt_of_inside (inside_of_mem_discovered hself hfinds)

theorem size_le_sizeOfAll {schema : Schema} {schemas : List Schema} (h : schema ∈ schemas) :
    schema.size ≤ sizeOfAll schemas := by
  obtain ⟨before, after, rfl⟩ := List.append_of_mem h
  rw [sizeOfAll_append, sizeOfAll]
  omega

end Schema

/-! ## One pass -/

namespace Sweep

variable (settings : Settings)

/-- The schemas that wait. -/
def schemas (sweep : Sweep) : List Schema :=
  sweep.pending.map (·.schema)

variable {settings}

/-- A step adds what is discovered in the schema, be it classified or faulty. -/
theorem schemas_step (sweep : Sweep) (pending : Pending) :
    (sweep.step settings pending).schemas = sweep.schemas ++ pending.schema.discovered := by
  rw [step]
  cases h : classify settings pending sweep.registry with
  | error fault =>
    have hnothing : pending.schema.discovered = [] := by
      rw [Schema.discovered, sites_of_classify_error h, List.flatMap_nil]
    rw [hnothing, List.append_nil]
    rfl
  | ok result =>
    rw [← schemas_found_classify h]
    exact List.map_append

theorem schemas_steps (sweep : Sweep) (waiting : List Pending) :
    (waiting.foldl (step settings) sweep).schemas
      = sweep.schemas ++ (waiting.map (·.schema)).flatMap Schema.discovered := by
  induction waiting generalizing sweep with
  | nil => simp
  | cons pending rest ih =>
    rw [List.foldl_cons, ih, schemas_step, List.append_assoc, List.map_cons, List.flatMap_cons]

/-- **After a pass those schemas wait that are discovered in the schemas before it.** -/
theorem schemas_pass (sweep : Sweep) :
    (sweep.pass settings).schemas = sweep.schemas.flatMap Schema.discovered := by
  rw [pass]
  split
  · rename_i hempty
    have hnone : sweep.pending = [] := List.isEmpty_iff.mp hempty
    simp [schemas, hnone]
  · exact schemas_steps sweep.begin sweep.pending

/-! ## All passes -/

theorem after_succ (sweep : Sweep) (n : Nat) :
    sweep.after settings (n + 1) = (sweep.after settings n).pass settings := by
  induction n generalizing sweep with
  | zero => rfl
  | succ n ih => exact ih (sweep.pass settings)

theorem schemas_after_succ (sweep : Sweep) (n : Nat) :
    (sweep.after settings (n + 1)).schemas
      = (sweep.after settings n).schemas.flatMap Schema.discovered := by
  rw [after_succ, schemas_pass]

theorem pending_eq_nil_iff {sweep : Sweep} : sweep.pending = [] ↔ sweep.schemas = [] := by
  simp [schemas]

variable {sweep : Sweep}

/-- Each pass over exhaustible schemas leaves exhaustible schemas that are smaller. -/
theorem size_add_le_of_mem_after (hall : ∀ schema ∈ sweep.schemas, schema.IsExhaustible)
    {bound : Nat} (hbound : ∀ schema ∈ sweep.schemas, schema.size ≤ bound) (n : Nat) :
    ∀ schema ∈ (sweep.after settings n).schemas,
      schema.IsExhaustible ∧ schema.size + n ≤ bound := by
  induction n with
  | zero =>
    intro schema hschema
    exact ⟨hall schema hschema, hbound schema hschema⟩
  | succ n ih =>
    intro schema hschema
    rw [schemas_after_succ] at hschema
    obtain ⟨outer, houter, hfinds⟩ := List.mem_flatMap.mp hschema
    obtain ⟨hexhaustible, hsize⟩ := ih outer houter
    have hlt : schema.size < outer.size := hexhaustible.size_lt hfinds
    exact ⟨hexhaustible.of_finds hfinds, by omega⟩

/-- Exhaustible schemas are swept up in as many passes as the largest of them has nodes. -/
theorem pending_after_eq_nil (hall : ∀ schema ∈ sweep.schemas, schema.IsExhaustible)
    {bound : Nat} (hbound : ∀ schema ∈ sweep.schemas, schema.size ≤ bound) {n : Nat}
    (hn : bound ≤ n) : (sweep.after settings n).pending = [] := by
  rw [pending_eq_nil_iff, List.eq_nil_iff_forall_not_mem]
  intro schema hschema
  obtain ⟨-, hsize⟩ := size_add_le_of_mem_after hall hbound n schema hschema
  have hpos : 0 < schema.size := schema.size_pos
  omega

variable (settings)

/-- After every pass some schema waits from which the one that finds itself is reached. -/
theorem finds_after_of_reaches {schema inner : Schema} (hschema : schema ∈ sweep.schemas)
    (hreach : Relation.ReflTransGen Schema.Finds schema inner) (hself : inner.findsItself = true)
    (n : Nat) :
    ∃ waiting ∈ (sweep.after settings n).schemas,
      Relation.ReflTransGen Schema.Finds waiting inner := by
  induction n with
  | zero => exact ⟨schema, hschema, hreach⟩
  | succ n ih =>
    obtain ⟨waiting, hwaiting, hreaches⟩ := ih
    rw [schemas_after_succ]
    rcases hreaches.cases_head with rfl | ⟨next, hfinds, hnext⟩
    · have hfound : waiting ∈ waiting.discovered := by
        rw [Schema.discovered_of_findsItself hself]
        exact List.mem_singleton_self waiting
      exact ⟨waiting, List.mem_flatMap.mpr ⟨waiting, hwaiting, hfound⟩, .refl⟩
    · exact ⟨next, List.mem_flatMap.mpr ⟨waiting, hwaiting, hfinds⟩, hnext⟩

theorem pending_after_ne_nil_of_reaches {schema inner : Schema} (hschema : schema ∈ sweep.schemas)
    (hreach : Relation.ReflTransGen Schema.Finds schema inner) (hself : inner.findsItself = true)
    (n : Nat) : (sweep.after settings n).pending ≠ [] := by
  obtain ⟨waiting, hwaiting, -⟩ := finds_after_of_reaches settings hschema hreach hself n
  rw [ne_eq, pending_eq_nil_iff]
  exact List.ne_nil_of_mem hwaiting

/-! ## When a sweep ends -/

/-- **A sweep ends if and only if no schema that it reaches finds itself**, and the number of
passes that a run allows is then enough. Every classification finds either schemas that stand
inside the classified one, or, where that finds itself, just that one again. -/
theorem empties_iff_exhaustible (registry : Registry) (roots : List Pending) :
    ((∃ n, (after settings { pending := roots, registry } n).pending = [])
        ↔ ∀ root ∈ roots, root.schema.IsExhaustible)
      ∧ ((∀ root ∈ roots, root.schema.IsExhaustible)
        → (run settings registry roots).pending = [])
      ∧ ∀ (pending : Pending) (names : Registry) (classified : Classified) (survey : Survey),
        classify settings pending names = .ok (classified, survey) →
          survey.found.map (·.schema) = pending.schema.discovered
          ∧ (pending.schema.findsItself = false
            → ∀ found ∈ survey.found, found.schema.Inside pending.schema)
          ∧ (pending.schema.findsItself = true
            → survey.found.map (·.schema) = [pending.schema]) := by
  have hends : (∀ root ∈ roots, root.schema.IsExhaustible)
      → (run settings registry roots).pending = [] := by
    intro hall
    have hroots : ∀ schema ∈ schemas { pending := roots, registry }, schema.IsExhaustible := by
      intro schema hschema
      obtain ⟨root, hroot, rfl⟩ := List.mem_map.mp hschema
      exact hall root hroot
    have hbound : ∀ schema ∈ schemas { pending := roots, registry },
        schema.size ≤ Schema.sizeOfAll (roots.map (·.schema)) := by
      intro schema hschema
      exact Schema.size_le_sizeOfAll hschema
    exact pending_after_eq_nil hroots hbound (Nat.le_succ _)
  refine ⟨⟨?_, fun hall => ⟨enough roots, hends hall⟩⟩, hends, ?_⟩
  · rintro ⟨n, hn⟩ root hroot inner hreach
    by_contra hself
    have hwaits : root.schema ∈ schemas { pending := roots, registry } :=
      List.mem_map_of_mem hroot
    exact pending_after_ne_nil_of_reaches settings hwaits hreach (by simpa using hself) n hn
  · intro pending names classified survey h
    have hschemas := schemas_found_classify h
    refine ⟨hschemas, ?_, ?_⟩
    · intro hself found hfound
      have hmem : found.schema ∈ survey.found.map (·.schema) := List.mem_map_of_mem hfound
      rw [hschemas] at hmem
      exact Schema.inside_of_mem_discovered hself hmem
    · intro hself
      rw [hschemas, Schema.discovered_of_findsItself hself]

/-- An array that declares a property is never swept up: where its value is mapped, the schema
is taken for an object, which waits under a name of its own. -/
theorem array_with_property_waits_forever :
    ¬ ∃ n, (after {}
      { registry := ⟨[PojoName.key ⟨"User", ""⟩]⟩
        pending := [⟨⟨"User", ""⟩, .inline
          { types := some (.single .array)
            properties := [("a", .inline { types := some (.single .string) })] }⟩] }
      n).pending = [] := by
  rintro ⟨n, hn⟩
  refine pending_after_ne_nil_of_reaches {} (List.mem_singleton_self _) .refl ?_ n hn
  decide

end Sweep

end PojoGraph
