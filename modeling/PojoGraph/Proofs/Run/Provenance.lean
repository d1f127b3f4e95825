import PojoGraph.Proofs.Order.Run
import PojoGraph.Proofs.Sweep.Waves

/-!
# Where the schemas of a run come from

Each schema of a run is one of a document, or has been found in another schema of the run. Where no
name is numbered, the schemas found in others are the offspring of these, so that the schemas that
come from one of a document are those of its waves.

## Main definitions

* `Course.Finds`, `Course.ComesFrom` — one schema is found in another, and comes from a schema of a
  document.

## Main statements

* `Course.queue_eq_firstWaves` — the schemas of a run are those of the waves of its roots.
* `Course.comesFrom_iff` — which schemas come from one of a document.
-/

namespace PojoGraph

/-! ## Waves of single schemas -/

theorem mem_waves_iff {roots : List Pending} {n : Nat} {pending : Pending} :
    pending ∈ waves roots n ↔ ∃ root ∈ roots, pending ∈ waves [root] n := by
  induction roots with
  | nil =>
    have hnone : waves [] n = [] := waves_eq_nil_of_le (n := 0) rfl n.zero_le
    simp [hnone]
  | cons root rest ih =>
    rw [← List.singleton_append, waves_append, List.mem_append, ih]
    simp

namespace Course

variable {settings : Settings} {isLoaded : String → Bool} {documents : List Document}

section

variable (course : Course settings isLoaded documents)

/-- The second schema has been found in the first. -/
def Finds (outer inner : Pending) : Prop :=
  ∃ visit ∈ course.visits, visit.pending = outer ∧ inner ∈ visit.survey.found

/-- The schema of the run comes from that of a document, which is not excluded: it is that schema,
or has been found in one that comes from it. -/
def ComesFrom (schema : String × Schema) (pending : Pending) : Prop :=
  Pending.ofSchema settings schema ∈ course.roots
    ∧ Relation.ReflTransGen course.Finds (Pending.ofSchema settings schema) pending

end

variable {course : Course settings isLoaded documents} (hkeeps : course.KeepsNames)

include hkeeps

/-- The schemas of all waves have different names where none is numbered. -/
theorem KeepsNames.nodup_firstWaves :
    ((firstWaves course.roots (Sweep.enough course.roots + 1)).map (·.name.key)).Nodup := by
  rw [← Sweep.keepsNames_iff settings course.nodup_keys_roots, Sweep.KeepsNames]
  rwa [KeepsNames, derivedNames_eq] at hkeeps

/-- **The schemas of a run are those of the waves of its roots.** -/
theorem queue_eq_firstWaves :
    course.queue = firstWaves course.roots (Sweep.enough course.roots) := by
  have hnodup := KeepsNames.nodup_firstWaves hkeeps
  rw [queue, course.passes_eq, firstWaves]
  refine List.flatMap_congr fun n hn => ?_
  have hlt : n + 1 ≤ Sweep.enough course.roots + 1 := Nat.le_succ_of_le (List.mem_range.mp hn)
  exact (Sweep.collects_after settings (Sweep.nodup_firstWaves_of_le hlt hnodup)).2

theorem waves_roots_eq_nil : waves course.roots (Sweep.enough course.roots) = [] := by
  obtain ⟨log, warnings, hresolves⟩ := course.resolves
  exact waves_eq_nil_of_resolve (KeepsNames.nodup_firstWaves hkeeps) (congrArg (·.2) hresolves)

/-- What has been found in a schema is its offspring. -/
theorem found_eq_offspring {visit : Visit} (hvisit : visit ∈ course.visits) :
    visit.survey.found = visit.pending.offspring := by
  obtain ⟨after, hchain⟩ := course.chain
  have hgranted := hchain.isGranted course.valid hkeeps visit hvisit
  exact Pending.found_of_grants hgranted (course.valid visit hvisit)

theorem finds_iff {outer inner : Pending} :
    course.Finds outer inner ↔ outer ∈ course.queue ∧ inner ∈ outer.offspring := by
  constructor
  · rintro ⟨visit, hvisit, rfl, hinner⟩
    rw [found_eq_offspring hkeeps hvisit] at hinner
    exact ⟨List.mem_map_of_mem hvisit, hinner⟩
  · rintro ⟨houter, hinner⟩
    obtain ⟨visit, hvisit, rfl⟩ := List.mem_map.mp houter
    exact ⟨visit, hvisit, rfl, by rwa [found_eq_offspring hkeeps hvisit]⟩

/-- **The schemas that come from one of a document** are those of its waves. -/
theorem comesFrom_iff {schema : String × Schema} {pending : Pending}
    (hroot : Pending.ofSchema settings schema ∈ course.roots) :
    course.ComesFrom schema pending
      ↔ pending ∈ firstWaves [Pending.ofSchema settings schema] (Sweep.enough course.roots) := by
  have hend := waves_roots_eq_nil hkeeps
  have hwaves : ∀ {n pending}, pending ∈ waves [Pending.ofSchema settings schema] n →
      n < Sweep.enough course.roots ∧ pending ∈ course.queue := by
    intro n pending hpending
    have hmem : pending ∈ waves course.roots n := mem_waves_iff.mpr ⟨_, hroot, hpending⟩
    have hlt : n < Sweep.enough course.roots := by
      by_contra hle
      rw [waves_eq_nil_of_le hend (Nat.le_of_not_lt hle)] at hmem
      cases hmem
    rw [queue_eq_firstWaves hkeeps]
    exact ⟨hlt, mem_firstWaves_iff.mpr ⟨n, hlt, hmem⟩⟩
  constructor
  · rintro ⟨-, hreach⟩
    obtain ⟨n, hn⟩ : ∃ n, pending ∈ waves [Pending.ofSchema settings schema] n := by
      induction hreach with
      | refl => exact ⟨0, List.mem_singleton_self _⟩
      | tail _ hfinds ih =>
        obtain ⟨n, hn⟩ := ih
        exact ⟨n + 1, List.mem_flatMap.mpr ⟨_, hn, ((finds_iff hkeeps).mp hfinds).2⟩⟩
    exact mem_firstWaves_iff.mpr ⟨n, (hwaves hn).1, hn⟩
  · intro hpending
    obtain ⟨n, -, hn⟩ := mem_firstWaves_iff.mp hpending
    refine ⟨hroot, ?_⟩
    clear hpending
    induction n generalizing pending with
    | zero =>
      rw [List.mem_singleton.mp hn]
    | succ n ih =>
      obtain ⟨outer, houter, hinner⟩ := List.mem_flatMap.mp hn
      exact .tail (ih houter) ((finds_iff hkeeps).mpr ⟨(hwaves houter).2, hinner⟩)

end Course

end PojoGraph
