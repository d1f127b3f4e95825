import PojoGraph.Proofs.Resolution.Result
import PojoGraph.Proofs.Sweep.Passes

/-!
# No schema is lost, repeated or replaced

The schemas that ever wait in a run form one queue: the roots, and then what each schema of the
queue has been found to contain. A run visits the queue from front to back. All keys of the queue
are different and taken in the registry, so that each visit gives the table an entry of its own
at its end. Resolution keeps the entries in their places.

## Main definitions

* `Visit` — the classification of a schema of the queue.
* `Visit.Chain` — visits one after the other, each with the names that the last one left taken.
* `Sweep.Accounts` — the invariant that ties the queue, the registry and the table together.

## Main statements

* `Sweep.Accounts.step`, `Sweep.Accounts.pass`, `Sweep.Accounts.after_chained` — it is kept.
* `snd_resolve_eq_ok_iff` — when a run succeeds, and with what.
* `resolve_accounts_for_queue` — a run that succeeds resolves the queue, entry by entry.
-/

namespace PojoGraph

/-- The classification of a schema: the names taken before it, and what it gave. -/
structure Visit where
  pending : Pending
  registry : Registry
  classified : Classified
  survey : Survey

namespace Visit

/-- The classification gives what the visit says. -/
def IsValid (settings : Settings) (visit : Visit) : Prop :=
  classify settings visit.pending visit.registry = .ok (visit.classified, visit.survey)

/-- The entry of the table that the visit makes. -/
def entry (visit : Visit) : String × Classified :=
  (visit.pending.name.key, visit.classified)

/-- Visits that lead from one registry to another: each begins with the names that the visit
before it left taken. -/
inductive Chain : Registry → List Visit → Registry → Prop where
  | nil (registry : Registry) : Chain registry [] registry
  | cons {rest : List Visit} {after : Registry} (visit : Visit)
      (hrest : Chain visit.survey.registry rest after) :
    Chain visit.registry (visit :: rest) after

theorem Chain.append {before middle after : Registry} {visits others : List Visit}
    (h : Chain before visits middle) (h' : Chain middle others after) :
    Chain before (visits ++ others) after := by
  induction h with
  | nil registry => exact h'
  | cons visit hrest ih => exact .cons visit (ih h')

end Visit

namespace Sweep

variable (settings : Settings)

/-- The invariant of a sweep that has visited some schemas, in whose pass `rest` is still to be
visited: what has been visited and what waits is the queue, its keys are different and taken, and
the table has the visits in order. -/
structure Accounts (roots : List Pending) (visits : List Visit) (rest : List Pending)
    (sweep : Sweep) : Prop where
  valid : ∀ visit ∈ visits, visit.IsValid settings
  queue : visits.map (·.pending) ++ (rest ++ sweep.pending)
    = roots ++ visits.flatMap (·.survey.found)
  nodup : ((visits.map (·.pending) ++ (rest ++ sweep.pending)).map (·.name.key)).Nodup
  taken : ∀ pending ∈ visits.map (·.pending) ++ (rest ++ sweep.pending),
    pending.name.key ∈ sweep.registry.keys
  table : sweep.table = visits.map Visit.entry

variable {settings}

/-! ## Faults -/

section

variable (settings)

theorem faults_step (sweep : Sweep) (pending : Pending) :
    sweep.faults <+: (sweep.step settings pending).faults := by
  rw [step]
  split
  · exact List.prefix_append _ _
  · exact List.prefix_refl _

theorem faults_steps (sweep : Sweep) (waiting : List Pending) :
    sweep.faults <+: (waiting.foldl (step settings) sweep).faults := by
  induction waiting generalizing sweep with
  | nil => exact List.prefix_refl _
  | cons pending rest ih =>
    exact (faults_step settings sweep pending).trans (ih (sweep.step settings pending))

theorem faults_pass (sweep : Sweep) : sweep.faults <+: (sweep.pass settings).faults := by
  rw [pass]
  split
  · exact List.prefix_refl _
  · exact faults_steps settings sweep.begin sweep.pending

end

theorem allFaults_eq_nil_iff {sweep : Sweep} :
    sweep.allFaults = [] ↔ sweep.faults = [] ∧ sweep.pending = [] := by
  rw [allFaults]
  cases hpending : sweep.pending with
  | nil => simp
  | cons first rest => simp

/-- A step that reports no fault has classified its schema. -/
theorem exists_classify_of_faults_step {sweep : Sweep} {pending : Pending}
    (h : (sweep.step settings pending).faults = []) :
    ∃ classified survey, classify settings pending sweep.registry = .ok (classified, survey) := by
  cases hclassify : classify settings pending sweep.registry with
  | ok result => exact ⟨result.1, result.2, rfl⟩
  | error fault => simp [step, hclassify] at h

/-! ## The invariant is kept -/

namespace Accounts

variable {roots : List Pending} {visits : List Visit} {rest : List Pending} {sweep : Sweep}

/-- The key of the schema that is visited next has no entry yet. -/
theorem not_mem_keys {pending : Pending}
    (h : Accounts settings roots visits (pending :: rest) sweep) :
    pending.name.key ∉ Dictionary.keys sweep.table := by
  have hkeys : Dictionary.keys sweep.table = (visits.map (·.pending)).map (·.name.key) := by
    rw [h.table, Dictionary.keys, List.map_map, List.map_map]
    rfl
  rw [hkeys]
  intro hkey
  have hnodup := h.nodup
  rw [List.map_append, List.nodup_append] at hnodup
  exact hnodup.2.2 _ hkey _ (List.mem_cons_self) rfl

/-- **A step moves the schema from those that wait to those that have been visited**, and adds to
the queue what has been found. -/
theorem step {pending : Pending} (h : Accounts settings roots visits (pending :: rest) sweep)
    (hfaults : (sweep.step settings pending).faults = []) :
    ∃ visit : Visit, visit.pending = pending
      ∧ Visit.Chain sweep.registry [visit] (sweep.step settings pending).registry
      ∧ Accounts settings roots (visits ++ [visit]) rest (sweep.step settings pending) := by
  obtain ⟨classified, survey, hclassify⟩ := exists_classify_of_faults_step hfaults
  let visit : Visit := ⟨pending, sweep.registry, classified, survey⟩
  have hclaims : sweep.registry.Claims survey.found survey.registry := claims_classify hclassify
  have hstep : sweep.step settings pending =
      { sweep with
        pending := sweep.pending ++ survey.found
        registry := survey.registry
        table := sweep.table.insert classified.name.key classified
        warnings := sweep.warnings ++ survey.warnings
        log := sweep.log ++ classificationLog classified survey } := by
    simp only [Sweep.step, hclassify]
  have hqueue : (visits ++ [visit]).map (·.pending)
        ++ (rest ++ (sweep.step settings pending).pending)
      = visits.map (·.pending) ++ (pending :: rest ++ sweep.pending) ++ survey.found := by
    rw [hstep]
    simp [visit]
  have hchain : Visit.Chain sweep.registry [visit] (sweep.step settings pending).registry := by
    rw [hstep]
    exact .cons visit (.nil survey.registry)
  refine ⟨visit, rfl, hchain, ?_, ?_, ?_, ?_, ?_⟩
  · intro other hother
    rcases List.mem_append.mp hother with hother | hother
    · exact h.valid other hother
    · obtain rfl := List.mem_singleton.mp hother
      exact hclassify
  · rw [hqueue, h.queue, List.flatMap_append, List.append_assoc]
    simp [visit]
  · rw [hqueue, List.map_append]
    refine List.nodup_append.mpr ⟨h.nodup, hclaims.nodup, ?_⟩
    rintro key hkey _ hfound rfl
    obtain ⟨waiting, hwaiting, rfl⟩ := List.mem_map.mp hkey
    obtain ⟨found, hmem, heq⟩ := List.mem_map.mp hfound
    refine hclaims.fresh found hmem ?_
    rw [heq]
    exact h.taken waiting hwaiting
  · rw [hqueue, hstep]
    intro other hother
    rcases List.mem_append.mp hother with hother | hother
    · exact hclaims.mem_of_mem_before (h.taken other hother)
    · exact hclaims.mem_of_mem_found hother
  · have hname : classified.name.key = pending.name.key := by rw [name_of_classify hclassify]
    rw [hstep]
    simp only
    rw [hname, Dictionary.insert_of_not_mem h.not_mem_keys, h.table, List.map_append]
    rfl

theorem steps (h : Accounts settings roots visits rest sweep)
    (hfaults : (rest.foldl (Sweep.step settings) sweep).faults = []) :
    ∃ visited : List Visit, visited.map (·.pending) = rest
      ∧ Visit.Chain sweep.registry visited (rest.foldl (Sweep.step settings) sweep).registry
      ∧ Accounts settings roots (visits ++ visited) []
        (rest.foldl (Sweep.step settings) sweep) := by
  induction rest generalizing visits sweep with
  | nil => exact ⟨[], rfl, .nil sweep.registry, by rw [List.append_nil]; exact h⟩
  | cons pending rest ih =>
    have hclean : (sweep.step settings pending).faults = [] := by
      have hprefix := faults_steps settings (sweep.step settings pending) rest
      rw [← List.foldl_cons, hfaults] at hprefix
      exact List.prefix_nil.mp hprefix
    obtain ⟨visit, hvisit, hchain, hstep⟩ := h.step hclean
    obtain ⟨visited, hvisited, hchained, hall⟩ := ih hstep hfaults
    refine ⟨visit :: visited, by rw [List.map_cons, hvisit, hvisited], hchain.append hchained, ?_⟩
    rw [List.append_cons]
    exact hall

/-- A pass visits all schemas that waited before it. -/
theorem pass (h : Accounts settings roots visits [] sweep)
    (hfaults : (sweep.pass settings).faults = []) :
    ∃ visited : List Visit, visited.map (·.pending) = sweep.pending
      ∧ Visit.Chain sweep.registry visited (sweep.pass settings).registry
      ∧ Accounts settings roots (visits ++ visited) [] (sweep.pass settings) := by
  unfold Sweep.pass at hfaults ⊢
  split at hfaults
  · rename_i hempty
    rw [if_pos hempty]
    exact ⟨[], (List.isEmpty_iff.mp hempty).symm, .nil sweep.registry,
      by rw [List.append_nil]; exact h⟩
  · rename_i hwaits
    rw [if_neg hwaits]
    have hbegin : Accounts settings roots visits sweep.pending sweep.begin := by
      refine ⟨h.valid, ?_, ?_, ?_, h.table⟩
      · simpa [begin] using h.queue
      · simpa [begin] using h.nodup
      · simpa [begin] using h.taken
    exact hbegin.steps hfaults

/-- **The invariant of a whole sweep**: the visits are the schemas that waited before each pass,
pass by pass, and lead from the first registry to the last. -/
theorem after_chained (h : Accounts settings roots [] [] sweep) (n : Nat)
    (hfaults : (sweep.after settings n).faults = []) :
    ∃ visits : List Visit,
      visits.map (·.pending) = (List.range n).flatMap (fun m => (sweep.after settings m).pending)
        ∧ Visit.Chain sweep.registry visits (sweep.after settings n).registry
        ∧ Accounts settings roots visits [] (sweep.after settings n) := by
  induction n with
  | zero => exact ⟨[], rfl, .nil sweep.registry, h⟩
  | succ n ih =>
    rw [after_succ] at hfaults ⊢
    have hclean : (sweep.after settings n).faults = [] := by
      have hprefix := faults_pass settings (sweep.after settings n)
      rw [hfaults] at hprefix
      exact List.prefix_nil.mp hprefix
    obtain ⟨visits, hvisits, hchain, haccounts⟩ := ih hclean
    obtain ⟨visited, hvisited, hchained, hall⟩ := haccounts.pass hfaults
    refine ⟨visits ++ visited, ?_, hchain.append hchained, hall⟩
    rw [List.map_append, hvisits, hvisited, List.range_succ, List.flatMap_append]
    simp

theorem after (h : Accounts settings roots [] [] sweep) (n : Nat)
    (hfaults : (sweep.after settings n).faults = []) :
    ∃ visits : List Visit,
      visits.map (·.pending) = (List.range n).flatMap (fun m => (sweep.after settings m).pending)
        ∧ Accounts settings roots visits [] (sweep.after settings n) := by
  obtain ⟨visits, hvisits, -, haccounts⟩ := h.after_chained n hfaults
  exact ⟨visits, hvisits, haccounts⟩

end Accounts

end Sweep

/-! ## Runs -/

section

variable {settings : Settings} {registry : Registry} {roots : List Pending} {log : List LogLine}
  {resolution : Resolution}

theorem exists_of_isOk {run : List LogLine × Except Failure Resolution}
    (h : run.2.isOk = true) : ∃ log resolution, run = (log, .ok resolution) := by
  obtain ⟨log, result⟩ := run
  cases result with
  | error failure => cases h
  | ok resolution => exact ⟨log, resolution, rfl⟩

/-- When schemas are resolved, and to what. -/
theorem snd_resolve_eq_ok_iff : (resolve settings registry roots).2 = .ok resolution
      ↔ ((Sweep.run settings registry roots).faults = []
          ∧ (Sweep.run settings registry roots).pending = [])
        ∧ ((Sweep.run settings registry roots).table.settle 0).2 = .ok resolution.entries
        ∧ (Sweep.run settings registry roots).warnings = resolution.warnings := by
  obtain ⟨entries, warnings⟩ := resolution
  rw [resolve, ← Sweep.allFaults_eq_nil_iff, ← Failure.of?_eq_none_iff]
  dsimp only
  cases Failure.of? (Sweep.run settings registry roots).allFaults with
  | some failure => simp
  | none =>
    cases ((Sweep.run settings registry roots).table.settle 0).2 with
    | error failure => simp [Except.map]
    | ok resolved => simp [Except.map]

/-- A run succeeds only if the sweep has come to an end without faults. -/
theorem sweep_of_resolve (h : resolve settings registry roots = (log, .ok resolution)) :
    (Sweep.run settings registry roots).faults = []
      ∧ (Sweep.run settings registry roots).pending = []
      ∧ ((Sweep.run settings registry roots).table.settle 0).2 = .ok resolution.entries := by
  have hresult : (resolve settings registry roots).2 = .ok resolution := congrArg (·.2) h
  obtain ⟨⟨hfaults, hpending⟩, hsettle, -⟩ := snd_resolve_eq_ok_iff.mp hresult
  exact ⟨hfaults, hpending, hsettle⟩

/-- **A run that succeeds accounts for each schema that ever waited.** There is one visit for
each, in the order of the queue, which is the roots and then what each visit has found, pass by
pass. No two schemas of the queue share a key, and the entries that the run resolves to are those
of the visits, in the same order and under the same names. -/
theorem resolve_accounts_for_queue (hnodup : (roots.map (·.name.key)).Nodup)
    (hclaimed : ∀ root ∈ roots, root.name.key ∈ registry.keys)
    (h : resolve settings registry roots = (log, .ok resolution)) :
    ∃ (visits : List Visit) (final : ClassTable),
      (∀ visit ∈ visits, classify settings visit.pending visit.registry
        = .ok (visit.classified, visit.survey))
      ∧ visits.map (·.pending) = roots ++ visits.flatMap (·.survey.found)
      ∧ visits.map (·.pending) = (List.range (Sweep.enough roots)).flatMap
        (fun n => (Sweep.after settings { pending := roots, registry } n).pending)
      ∧ (Sweep.after settings { pending := roots, registry } (Sweep.enough roots)).pending = []
      ∧ (visits.map (·.pending.name.key)).Nodup
      ∧ (resolution.entries.map (·.name.key)).Nodup
      ∧ (Sweep.run settings registry roots).table
        = visits.map (fun visit => (visit.pending.name.key, visit.classified))
      ∧ (Sweep.run settings registry roots).table.SettlesTo final
      ∧ resolution.entries = final.entries
      ∧ List.Forall₂ (fun visit resolved => resolved.name = visit.pending.name
        ∧ final.Becomes visit.classified resolved.entry) visits resolution.entries := by
  obtain ⟨hfaults, hpending, hsettle⟩ := sweep_of_resolve h
  have hbegin : Sweep.Accounts settings roots [] [] { pending := roots, registry } :=
    ⟨by simp, by simp, by simpa using hnodup, by simpa using hclaimed, rfl⟩
  obtain ⟨visits, hvisits, haccounts⟩ := hbegin.after (Sweep.enough roots) hfaults
  have htable : (Sweep.run settings registry roots).table = visits.map Visit.entry :=
    haccounts.table
  obtain ⟨final, hsettles, -, hentries⟩ := ClassTable.exists_settlesTo hsettle
  have hkeys : (visits.map (·.pending.name.key)).Nodup := by
    have hnodup := haccounts.nodup
    rw [List.map_append, List.map_map] at hnodup
    exact (List.nodup_append.mp hnodup).1
  have hall : List.Forall₂ (fun visit resolved => resolved.name = visit.pending.name
      ∧ final.Becomes visit.classified resolved.entry) visits resolution.entries := by
    have hbecomes := hsettles.entries
    rw [htable, ← hentries, List.forall₂_map_left_iff] at hbecomes
    refine ((List.forall₂_and_left _ _).mpr ⟨haccounts.valid, hbecomes⟩).imp ?_
    rintro visit resolved ⟨hvalid, hbecomes⟩
    refine ⟨?_, hbecomes⟩
    rw [← Resolved.name_entry, hbecomes.name_eq]
    exact name_of_classify hvalid
  have hnames : visits.map (·.pending.name.key) = resolution.entries.map (·.name.key) := by
    rw [← List.forall₂_eq_eq_eq, List.forall₂_map_left_iff, List.forall₂_map_right_iff]
    refine hall.imp ?_
    rintro visit resolved ⟨hname, -⟩
    rw [hname]
  refine ⟨visits, final, haccounts.valid, ?_, hvisits, hpending, hkeys, ?_, htable, hsettles,
    hentries, hall⟩
  · have hqueue := haccounts.queue
    rw [List.nil_append, show (Sweep.after settings { pending := roots, registry }
      (Sweep.enough roots)).pending = [] from hpending, List.append_nil] at hqueue
    exact hqueue
  · rw [← hnames]
    exact hkeys

/-- A branch written in place waits for the second pass, under the name of its keyword. -/
theorem resolve_accounts_for_inline_branch :
    ∃ log resolution,
      resolve {} ⟨["pet"]⟩ [⟨⟨"Pet", ""⟩, .inline { allOf := [.inline { properties :=
        [("name", .inline { types := some (.single .string) })] }] }⟩] = (log, .ok resolution)
      ∧ ∃ visits : List Visit, visits.map (·.pending.name.key) = ["pet", "petallof"]
        ∧ List.Forall₂ (fun visit resolved => resolved.name = visit.pending.name)
          visits resolution.entries := by
  obtain ⟨log, resolution, h⟩ : ∃ log resolution,
      resolve {} ⟨["pet"]⟩ [⟨⟨"Pet", ""⟩, .inline { allOf := [.inline { properties :=
        [("name", .inline { types := some (.single .string) })] }] }⟩]
        = (log, .ok resolution) := exists_of_isOk (by decide +kernel)
  obtain ⟨visits, final, -, -, hqueue, -, -, -, -, -, -, hall⟩ :=
    resolve_accounts_for_queue (by decide +kernel) (by decide +kernel) h
  refine ⟨log, resolution, h, visits, ?_, hall.imp fun _ _ hvisit => hvisit.1⟩
  have hkeys := congrArg (List.map (·.name.key)) hqueue
  rw [List.map_map] at hkeys
  refine hkeys.trans ?_
  decide +kernel

end

end PojoGraph
