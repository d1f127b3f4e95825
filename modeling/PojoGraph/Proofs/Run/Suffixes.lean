import PojoGraph.Proofs.Run.Course

/-!
# One suffix

Names are made of schema keys with the suffix of the run, and the names of inline schemas are made
of these. So all names of a run have its suffix.

## Main statements

* `Sweep.forall_pending_after` — what found schemas inherit holds of all that wait.
* `Course.suffix_eq` — the names of a run have the suffix of the run.
-/

namespace PojoGraph

/-! ## Names made of names -/

namespace Registry

theorem suffix_choose (registry : Registry) (name : PojoName) :
    (registry.choose name).suffix = name.suffix := by
  rw [choose]
  split
  · rfl
  · split <;> rfl

/-- Claiming keeps suffixes. -/
theorem suffix_claimAll {suffix : String} (registry : Registry) (names : List PojoName)
    (h : ∀ name ∈ names, name.suffix = suffix) :
    ∀ name ∈ (registry.claimAll names).1, name.suffix = suffix := by
  induction names generalizing registry with
  | nil => simp [claimAll]
  | cons name rest ih =>
    obtain ⟨hname, hrest⟩ := List.forall_mem_cons.mp h
    refine List.forall_mem_cons.mpr ⟨?_, ih _ hrest⟩
    rw [suffix_choose, hname]

end Registry

theorem Schema.suffix_derivedNames {schema : Schema} {owner name : PojoName}
    (h : name ∈ schema.derivedNames owner) : name.suffix = owner.suffix := by
  obtain ⟨site, -, hname⟩ := List.mem_flatMap.mp h
  cases site with
  | member property nested =>
    obtain ⟨-, -, rfl⟩ := List.mem_map.mp hname
    rfl
  | branch tag nested =>
    obtain rfl := List.mem_singleton.mp hname
    rfl

/-- What a classification finds has names with the suffix of the classified schema. -/
theorem suffix_of_mem_found {settings : Settings} {pending : Pending} {registry : Registry}
    {classified : Classified} {survey : Survey}
    (h : classify settings pending registry = .ok (classified, survey)) {inner : Pending}
    (hinner : inner ∈ survey.found) : inner.name.suffix = pending.name.suffix := by
  have hnames : (registry.claimAll (pending.schema.derivedNames pending.name)).1
      = survey.found.map (·.name) := congrArg (·.1) (claimAll_classify h)
  refine registry.suffix_claimAll (pending.schema.derivedNames pending.name)
    (fun name => Schema.suffix_derivedNames) inner.name ?_
  rw [hnames]
  exact List.mem_map_of_mem hinner

/-! ## The sweep -/

namespace Sweep

variable {settings : Settings} {P : Pending → Prop}

/-- What holds of all schemas that wait, and of what is found in such as it holds of, holds of all
that wait after some passes. -/
theorem forall_pending_after (hfound : ∀ pending registry classified survey, P pending →
      classify settings pending registry = .ok (classified, survey) →
        ∀ inner ∈ survey.found, P inner)
    {sweep : Sweep} (h : ∀ pending ∈ sweep.pending, P pending) (n : Nat) :
    ∀ pending ∈ (sweep.after settings n).pending, P pending := by
  have hstep : ∀ (sweep : Sweep) (waiting : Pending), P waiting →
      (∀ pending ∈ sweep.pending, P pending) →
        ∀ pending ∈ (sweep.step settings waiting).pending, P pending := by
    intro sweep waiting hwaiting hall
    rw [step]
    split
    · exact hall
    · rename_i classified survey hclassify
      exact List.forall_mem_append.mpr ⟨hall, hfound _ _ _ _ hwaiting hclassify⟩
  have hsteps : ∀ (waiting : List Pending) (sweep : Sweep), (∀ pending ∈ waiting, P pending) →
      (∀ pending ∈ sweep.pending, P pending) →
        ∀ pending ∈ (waiting.foldl (step settings) sweep).pending, P pending := by
    intro waiting
    induction waiting with
    | nil => exact fun sweep _ hall => hall
    | cons first rest ih =>
      intro sweep hwaiting hall
      obtain ⟨hfirst, hrest⟩ := List.forall_mem_cons.mp hwaiting
      exact ih _ hrest (hstep sweep first hfirst hall)
  induction n with
  | zero => exact h
  | succ n ih =>
    rw [after_succ, pass]
    split
    · exact ih
    · exact hsteps _ _ ih fun pending hpending => (List.not_mem_nil hpending).elim

end Sweep

namespace Course

variable {settings : Settings} {isLoaded : String → Bool} {documents : List Document}
  {course : Course settings isLoaded documents}

/-- **The names of a run have the suffix of the run.** -/
theorem suffix_eq {pending : Pending} (h : pending ∈ course.queue) :
    pending.name.suffix = settings.suffix := by
  rw [queue, course.passes_eq] at h
  obtain ⟨n, -, hwaits⟩ := List.mem_flatMap.mp h
  refine Sweep.forall_pending_after (P := fun pending => pending.name.suffix = settings.suffix)
    (fun pending registry classified survey hpending hclassify inner hinner => ?_)
    (fun root hroot => ?_) n pending hwaits
  · exact (suffix_of_mem_found hclassify hinner).trans hpending
  · obtain ⟨schema, -, rfl⟩ := mem_roots.mp hroot
    rfl

end Course

end PojoGraph
