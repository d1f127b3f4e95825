import PojoGraph.Proofs.Order.Sweep

/-!
# The waves of a sweep

As long as each schema gets the names that it asks for, what it gives depends on the schema alone.
So does what waits after some passes: each pass finds one more wave of schemas, which are the
offspring of the wave before, and the waves of several schemas are those of each, put together. A
sweep of schemas that get their names collects what the schemas of all waves give.

## Main definitions

* `Pending.offspring`, `waves` — what is found in a schema, and in schemas at some remove.
* `Pending.outcome` — what a schema gives if it gets the names that it asks for.
* `Sweep.Collects` — what a sweep has collected from some schemas.
* `Sweep.KeepsNames` — all schemas of a sweep get the names that they ask for.

## Main statements

* `waves_append` — waves go side by side.
* `Sweep.collects_step`, `Sweep.collects_pass`, `Sweep.collects_after` — what steps, passes and
  sweeps collect.
* `Sweep.keepsNames_iff` — no name is numbered if the schemas of all waves have different names.
-/

namespace PojoGraph

/-! ## What a schema gives -/

/-- A site asks for as many names as there are schemas found at it. -/
theorem Site.length_derivedNames (owner : PojoName) (site : Site) :
    (site.derivedNames owner).length = site.schemas.length := by
  cases site with
  | member name schema => exact List.length_map _
  | branch tag schema => rfl

/-- The schemas found at a site, under the names that it asks for. -/
def Site.offspring (owner : PojoName) (site : Site) : List Pending :=
  ((site.derivedNames owner).zip site.schemas).map fun (name, schema) => ⟨name, schema⟩

namespace Pending

variable (settings : Settings) (pending : Pending)

/-- The schemas found in the schema, under the names that it asks for. -/
def offspring : List Pending :=
  (pending.derivedNames.zip pending.schema.discovered).map fun (name, schema) => ⟨name, schema⟩

/-- What the schema turns out to be, what is found in it and what is warned of, or what is wrong
with it, if it gets the names that it asks for. -/
def outcome : Except Fault (Classified × List Pending × List Warning) :=
  withoutNames (classify settings pending {})

/-- The entry that the schema makes in the table, unless something is wrong with it. -/
def row? : Option (String × Classified) :=
  match pending.outcome settings with
  | .ok (classified, _) => some (pending.name.key, classified)
  | .error _ => none

/-- What the schema is warned of. -/
def warnings : List Warning :=
  match pending.outcome settings with
  | .ok (_, _, warnings) => warnings
  | .error _ => []

/-- What is wrong with the schema. -/
def fault? : Option Fault :=
  match pending.outcome settings with
  | .ok _ => none
  | .error fault => some fault

variable {settings pending}

theorem length_derivedNames : pending.derivedNames.length = pending.schema.discovered.length := by
  unfold derivedNames Schema.derivedNames Schema.discovered
  rw [List.length_flatMap, List.length_flatMap]
  exact congrArg List.sum (List.map_congr_left fun site _ => site.length_derivedNames pending.name)

theorem names_offspring (pending : Pending) :
    pending.offspring.map (·.name) = pending.derivedNames := by
  rw [offspring, List.map_map]
  exact List.map_fst_zip (Nat.le_of_eq length_derivedNames)

theorem schemas_offspring (pending : Pending) :
    pending.offspring.map (·.schema) = pending.schema.discovered := by
  rw [offspring, List.map_map]
  exact List.map_snd_zip (Nat.le_of_eq length_derivedNames.symm)

/-- The offspring is what is found at the sites of the schema. -/
theorem offspring_eq (pending : Pending) :
    pending.offspring = pending.schema.sites.flatMap (Site.offspring pending.name) := by
  have hzip : ∀ sites : List Site,
      (sites.flatMap (Site.derivedNames pending.name)).zip (sites.flatMap Site.schemas)
        = sites.flatMap fun site => (site.derivedNames pending.name).zip site.schemas := by
    intro sites
    induction sites with
    | nil => rfl
    | cons site rest ih =>
      rw [List.flatMap_cons, List.flatMap_cons, List.flatMap_cons,
        List.zip_append (site.length_derivedNames _), ih]
  rw [offspring, derivedNames, Schema.derivedNames, Schema.discovered, hzip, List.map_flatMap]
  rfl

/-- What is found is the offspring if it has the names that have been asked for. -/
theorem eq_offspring {found : List Pending} (hnames : found.map (·.name) = pending.derivedNames)
    (hschemas : found.map (·.schema) = pending.schema.discovered) : found = pending.offspring := by
  rw [offspring, ← hnames, ← hschemas, List.zip_map', List.map_map]
  exact (List.map_id _).symm

end Pending

/-! ## Waves -/

/-- What is found in schemas at the given remove: the schemas themselves, their offspring, and so
on. -/
def waves (roots : List Pending) : Nat → List Pending
  | 0 => roots
  | n + 1 => (waves roots n).flatMap Pending.offspring

/-- The schemas of the first waves. -/
def firstWaves (roots : List Pending) (n : Nat) : List Pending :=
  (List.range n).flatMap (waves roots)

theorem firstWaves_succ (roots : List Pending) (n : Nat) :
    firstWaves roots (n + 1) = firstWaves roots n ++ waves roots n := by
  rw [firstWaves, List.range_succ, List.flatMap_append, List.flatMap_singleton, firstWaves]

/-- The waves from the second on are those of what is found in the roots. -/
theorem waves_succ_left (roots : List Pending) (n : Nat) :
    waves roots (n + 1) = waves (roots.flatMap Pending.offspring) n := by
  induction n with
  | zero => rfl
  | succ n ih => rw [waves, ih, waves]

theorem firstWaves_succ_left (roots : List Pending) (n : Nat) :
    firstWaves roots (n + 1) = roots ++ firstWaves (roots.flatMap Pending.offspring) n := by
  rw [firstWaves, List.range_succ_eq_map, List.flatMap_cons, List.flatMap_map]
  exact congrArg (roots ++ ·) (List.flatMap_congr fun m _ => waves_succ_left roots m)

/-- The waves of several schemas are those of each, put together. -/
theorem waves_append (roots others : List Pending) (n : Nat) :
    waves (roots ++ others) n = waves roots n ++ waves others n := by
  induction n with
  | zero => rfl
  | succ n ih => rw [waves, ih, List.flatMap_append, waves, waves]

theorem waves_of_perm {roots roots' : List Pending} (h : roots.Perm roots') (n : Nat) :
    (waves roots n).Perm (waves roots' n) := by
  induction n with
  | zero => exact h
  | succ n ih => exact ih.flatMap_right _

theorem mem_firstWaves_iff {roots : List Pending} {n : Nat} {pending : Pending} :
    pending ∈ firstWaves roots n ↔ ∃ m < n, pending ∈ waves roots m := by
  simp [firstWaves, List.mem_flatMap]

theorem firstWaves_of_perm {roots roots' : List Pending} (h : roots.Perm roots') (n : Nat) :
    (firstWaves roots n).Perm (firstWaves roots' n) :=
  List.Perm.flatMap_left _ fun m _ => waves_of_perm h m

/-- The first waves of several schemas are those of each, put together. -/
theorem firstWaves_append_perm (roots others : List Pending) (n : Nat) :
    (firstWaves (roots ++ others) n).Perm (firstWaves roots n ++ firstWaves others n) := by
  have hwaves : firstWaves (roots ++ others) n
      = (List.range n).flatMap fun m => waves roots m ++ waves others m :=
    List.flatMap_congr fun m _ => waves_append roots others m
  rw [hwaves]
  exact (List.flatMap_append_perm _ _ _).symm

theorem waves_cons (pending : Pending) (others : List Pending) (n : Nat) :
    waves (pending :: others) n = waves [pending] n ++ waves others n :=
  waves_append [pending] others n

theorem firstWaves_cons_perm (pending : Pending) (others : List Pending) (n : Nat) :
    (firstWaves (pending :: others) n).Perm (firstWaves [pending] n ++ firstWaves others n) :=
  firstWaves_append_perm [pending] others n

/-- Once a wave is empty, so are all after it. -/
theorem waves_eq_nil_of_le {roots : List Pending} {n m : Nat} (h : waves roots n = [])
    (hle : n ≤ m) : waves roots m = [] := by
  induction hle with
  | refl => exact h
  | step _ ih => rw [waves, ih, List.flatMap_nil]

theorem firstWaves_eq_of_le {roots : List Pending} {n m : Nat} (h : waves roots n = [])
    (hle : n ≤ m) : firstWaves roots m = firstWaves roots n := by
  induction hle with
  | refl => rfl
  | step hle ih => rw [firstWaves_succ, ih, waves_eq_nil_of_le h hle, List.append_nil]

/-- As many waves as needed are all waves. -/
theorem firstWaves_eq_of_end {roots : List Pending} {n m : Nat} (h : waves roots n = [])
    (h' : waves roots m = []) : firstWaves roots n = firstWaves roots m := by
  rcases Nat.le_total n m with hle | hle
  · exact (firstWaves_eq_of_le h hle).symm
  · exact firstWaves_eq_of_le h' hle

/-- The schemas of the first waves have the names of the roots, and those that the waves before
the last one ask for. -/
theorem names_firstWaves_succ (roots : List Pending) (n : Nat) :
    (firstWaves roots (n + 1)).map (·.name)
      = roots.map (·.name) ++ (firstWaves roots n).flatMap Pending.derivedNames := by
  induction n with
  | zero => simp [firstWaves, waves]
  | succ n ih =>
    have hwave : (waves roots (n + 1)).map (·.name)
        = (waves roots n).flatMap Pending.derivedNames := by
      rw [waves, List.map_flatMap]
      exact List.flatMap_congr fun pending _ => pending.names_offspring
    rw [firstWaves_succ, List.map_append, ih, hwave, firstWaves_succ, List.flatMap_append,
      List.append_assoc]

/-- The schemas of the first waves have different names if the roots have, and the names that the
waves before the last one ask for are granted. -/
theorem nodup_firstWaves_succ_iff {roots : List Pending} {n : Nat} :
    ((firstWaves roots (n + 1)).map (·.name.key)).Nodup
      ↔ (roots.map (·.name.key)).Nodup
        ∧ (Registry.ofPending roots).Grants ((firstWaves roots n).flatMap Pending.derivedNames) := by
  have hkeys : (firstWaves roots (n + 1)).map (·.name.key)
      = roots.map (·.name.key)
        ++ ((firstWaves roots n).flatMap Pending.derivedNames).map (·.key) := by
    have hnames := congrArg (List.map (·.key)) (names_firstWaves_succ roots n)
    simpa only [List.map_append, List.map_map, Function.comp_def] using hnames
  have htaken : ∀ key, key ∈ (Registry.ofPending roots).keys ↔ key ∈ roots.map (·.name.key) :=
    fun key => List.mem_reverse
  rw [hkeys, List.nodup_append, Registry.grants_iff]
  constructor
  · rintro ⟨hroots, hnames, hapart⟩
    refine ⟨hroots, hnames, fun name hname hmem => ?_⟩
    exact hapart _ ((htaken _).mp hmem) _ (List.mem_map_of_mem hname) rfl
  · rintro ⟨hroots, hnames, hfree⟩
    refine ⟨hroots, hnames, fun key hkey other hother heq => ?_⟩
    obtain ⟨name, hname, rfl⟩ := List.mem_map.mp hother
    exact hfree name hname ((htaken _).mpr (heq ▸ hkey))

/-! ## What a sweep collects -/

section

variable {settings : Settings} {pending : Pending} {registry : Registry}

/-- A schema gives the same, whatever names have been taken, if those that it asks for are free. -/
theorem Pending.outcome_eq (settings : Settings)
    (hgrants : registry.Grants pending.derivedNames) :
    pending.outcome settings = withoutNames (classify settings pending registry) := by
  have hbare : ({} : Registry).Grants pending.derivedNames :=
    Registry.grants_iff.mpr ⟨(Registry.grants_iff.mp hgrants).1, fun _ _ h => nomatch h⟩
  exact classify_of_grants hbare hgrants

theorem Pending.found_of_grants (hgrants : registry.Grants pending.derivedNames)
    {classified : Classified} {survey : Survey}
    (h : classify settings pending registry = .ok (classified, survey)) :
    survey.found = pending.offspring := by
  have hclaims : (registry.claimAll pending.derivedNames).1 = survey.found.map (·.name) :=
    congrArg (·.1) (claimAll_classify h)
  exact eq_offspring (hclaims.symm.trans hgrants) (schemas_found_classify h)

/-- Nothing is found in what is faulty. -/
theorem Pending.derivedNames_of_error {fault : Fault}
    (h : classify settings pending registry = .error fault) : pending.derivedNames = [] := by
  rw [derivedNames, Schema.derivedNames, sites_of_classify_error h, List.flatMap_nil]

end

namespace Sweep

/-- The sweep has collected what the given schemas give if they get the names that they ask
for. -/
structure Collects (settings : Settings) (visited : List Pending) (before after : Sweep) :
    Prop where
  registry : after.registry
    = (before.registry.claimAll (visited.flatMap Pending.derivedNames)).2
  table : after.table = before.table ++ visited.filterMap (Pending.row? settings)
  warnings : after.warnings = before.warnings ++ visited.flatMap (Pending.warnings settings)
  faults : after.faults = before.faults ++ visited.filterMap (Pending.fault? settings)

variable {settings : Settings} {sweep : Sweep}

theorem Collects.refl (settings : Settings) (sweep : Sweep) : Collects settings [] sweep sweep :=
  ⟨rfl, by simp, by simp, by simp⟩

theorem Collects.trans {visited others : List Pending} {before middle after : Sweep}
    (h : Collects settings visited before middle) (h' : Collects settings others middle after) :
    Collects settings (visited ++ others) before after where
  registry := by
    rw [h'.registry, h.registry, List.flatMap_append, Registry.claimAll_append]
  table := by rw [h'.table, h.table, List.filterMap_append, List.append_assoc]
  warnings := by rw [h'.warnings, h.warnings, List.flatMap_append, List.append_assoc]
  faults := by rw [h'.faults, h.faults, List.filterMap_append, List.append_assoc]

/-- What is collected has the names of the schemas that it is collected from. -/
theorem keys_entries_sublist (settings : Settings) (visited : List Pending) :
    List.Sublist (Dictionary.keys (visited.filterMap (Pending.row? settings)))
      (visited.map (·.name.key)) := by
  induction visited with
  | nil => exact .slnil
  | cons pending rest ih =>
    rw [List.filterMap_cons, Pending.row?]
    cases pending.outcome settings with
    | ok result => exact ih.cons_cons _
    | error fault => exact ih.cons _

/-- **A step collects what the schema gives**, whatever names have been taken, if those that it
asks for are free. -/
theorem collects_step {pending : Pending} (hgrants : sweep.registry.Grants pending.derivedNames)
    (hnew : pending.name.key ∉ Dictionary.keys sweep.table) :
    Collects settings [pending] sweep (sweep.step settings pending) := by
  have houtcome := Pending.outcome_eq settings hgrants
  rw [step]
  cases hclassify : classify settings pending sweep.registry with
  | error fault =>
    rw [hclassify] at houtcome
    have hnames := Pending.derivedNames_of_error hclassify
    have hentry : pending.row? settings = none := by rw [Pending.row?, houtcome]; rfl
    have hwarnings : pending.warnings settings = [] := by rw [Pending.warnings, houtcome]; rfl
    have hfault : pending.fault? settings = some fault := by rw [Pending.fault?, houtcome]; rfl
    exact ⟨by simp [hnames, Registry.claimAll], by simp [hentry], by simp [hwarnings],
      by simp [hfault]⟩
  | ok result =>
    obtain ⟨classified, survey⟩ := result
    rw [hclassify] at houtcome
    have hregistry : survey.registry = (sweep.registry.claimAll pending.derivedNames).2 :=
      (congrArg (·.2) (claimAll_classify hclassify)).symm
    have hkey : classified.name.key = pending.name.key := by rw [name_of_classify hclassify]
    have hentry : pending.row? settings = some (pending.name.key, classified) := by
      rw [Pending.row?, houtcome]
      rfl
    have hwarnings : pending.warnings settings = survey.warnings := by
      rw [Pending.warnings, houtcome]
      rfl
    have hfault : pending.fault? settings = none := by rw [Pending.fault?, houtcome]; rfl
    refine ⟨by simpa using hregistry, ?_, by simp [hwarnings], by simp [hfault]⟩
    dsimp only
    rw [hkey, Dictionary.insert_of_not_mem hnew]
    simp [hentry]

theorem pending_step {pending : Pending} (hgrants : sweep.registry.Grants pending.derivedNames) :
    (sweep.step settings pending).pending = sweep.pending ++ pending.offspring := by
  rw [step]
  cases hclassify : classify settings pending sweep.registry with
  | error fault =>
    have hnone : pending.offspring = [] := by
      rw [Pending.offspring, Pending.derivedNames_of_error hclassify]
      rfl
    simp [hnone]
  | ok result => simp [Pending.found_of_grants hgrants hclassify]

/-- Steps collect what each schema gives, and find the offspring of all. -/
theorem collects_steps (settings : Settings) (sweep : Sweep) {visited : List Pending}
    (hgrants : sweep.registry.Grants (visited.flatMap Pending.derivedNames))
    (hnodup : (Dictionary.keys sweep.table ++ visited.map (·.name.key)).Nodup) :
    Collects settings visited sweep (visited.foldl (step settings) sweep)
      ∧ (visited.foldl (step settings) sweep).pending
        = sweep.pending ++ visited.flatMap Pending.offspring := by
  induction visited generalizing sweep with
  | nil => exact ⟨.refl settings sweep, by simp⟩
  | cons pending rest ih =>
    rw [List.flatMap_cons] at hgrants
    obtain ⟨hfirst, hothers⟩ := Registry.grants_append_iff.mp hgrants
    have hnew : pending.name.key ∉ Dictionary.keys sweep.table := by
      intro hmem
      exact (List.nodup_append.mp hnodup).2.2 _ hmem _ List.mem_cons_self rfl
    have hstep : Collects settings [pending] sweep (sweep.step settings pending) :=
      collects_step hfirst hnew
    have hregistry : (sweep.step settings pending).registry.Grants
        (rest.flatMap Pending.derivedNames) := by
      rw [hstep.registry]
      simpa using hothers
    have hkeys : (Dictionary.keys (sweep.step settings pending).table
        ++ rest.map (·.name.key)).Nodup := by
      refine hnodup.sublist ?_
      rw [hstep.table, Dictionary.keys, List.map_append, List.map_cons, List.append_cons]
      exact ((List.Sublist.refl _).append (keys_entries_sublist settings [pending])).append_right _
    obtain ⟨hcollects, hpending⟩ := ih _ hregistry hkeys
    refine ⟨hstep.trans hcollects, ?_⟩
    rw [List.foldl_cons, hpending, pending_step hfirst, List.flatMap_cons, List.append_assoc]

/-- **A pass collects what each waiting schema gives**, and leaves the offspring of all. -/
theorem collects_pass (settings : Settings)
    (hgrants : sweep.registry.Grants (sweep.pending.flatMap Pending.derivedNames))
    (hnodup : (Dictionary.keys sweep.table ++ sweep.pending.map (·.name.key)).Nodup) :
    Collects settings sweep.pending sweep (sweep.pass settings)
      ∧ (sweep.pass settings).pending = sweep.pending.flatMap Pending.offspring := by
  rw [pass]
  cases hempty : sweep.pending.isEmpty with
  | true =>
    rw [List.isEmpty_iff] at hempty
    simp only [if_true, hempty, List.flatMap_nil, and_true]
    exact .refl settings sweep
  | false =>
    obtain ⟨hcollects, hpending⟩ := collects_steps settings sweep.begin hgrants hnodup
    exact ⟨⟨hcollects.registry, hcollects.table, hcollects.warnings, hcollects.faults⟩, hpending⟩

/-! ## All passes -/

/-- The state in which the sweep of the given schemas begins. -/
def ofRoots (roots : List Pending) : Sweep :=
  { pending := roots, registry := .ofPending roots }

variable {roots : List Pending} {n : Nat}

/-- The schemas that wait after some passes are those of the next wave, under whatever names. -/
theorem schemas_after (settings : Settings) (roots : List Pending) (n : Nat) :
    ((ofRoots roots).after settings n).schemas = (waves roots n).map (·.schema) := by
  induction n with
  | zero => rfl
  | succ n ih =>
    rw [schemas_after_succ, ih, waves, List.map_flatMap, List.flatMap_map]
    exact List.flatMap_congr fun pending _ => pending.schemas_offspring.symm

/-- **Waves that end do so within the passes of a run.** -/
theorem waves_enough_eq_nil (h : waves roots n = []) : waves roots (enough roots) = [] := by
  have hnone : ∀ m, ((ofRoots roots).after {} m).pending = [] ↔ waves roots m = [] := by
    intro m
    rw [pending_eq_nil_iff, schemas_after, List.map_eq_nil_iff]
  have hall : ∀ schema ∈ (ofRoots roots).schemas, schema.IsExhaustible := by
    intro schema hschema inner hreach
    by_contra hself
    exact pending_after_ne_nil_of_reaches {} hschema hreach (by simpa using hself) n
      ((hnone n).mpr h)
  rw [← hnone]
  exact pending_after_eq_nil hall (fun schema hschema => Schema.size_le_sizeOfAll hschema)
    (Nat.le_succ _)

/-- **A sweep collects what the schemas of all waves give**, if these have different names. -/
theorem collects_after (settings : Settings)
    (hnodup : ((firstWaves roots (n + 1)).map (·.name.key)).Nodup) :
    Collects settings (firstWaves roots n) (ofRoots roots) ((ofRoots roots).after settings n)
      ∧ ((ofRoots roots).after settings n).pending = waves roots n := by
  induction n with
  | zero => exact ⟨.refl settings _, rfl⟩
  | succ n ih =>
    obtain ⟨-, hgrants⟩ := nodup_firstWaves_succ_iff.mp hnodup
    have hbefore : ((firstWaves roots (n + 1)).map (·.name.key)).Nodup := by
      rw [firstWaves_succ, List.map_append] at hnodup
      exact (List.nodup_append.mp hnodup).1
    obtain ⟨hcollects, hpending⟩ := ih hbefore
    rw [firstWaves_succ, List.flatMap_append] at hgrants
    have hwave : ((ofRoots roots).after settings n).registry.Grants
        (((ofRoots roots).after settings n).pending.flatMap Pending.derivedNames) := by
      rw [hpending, hcollects.registry]
      exact (Registry.grants_append_iff.mp hgrants).2
    have hkeys : (Dictionary.keys ((ofRoots roots).after settings n).table
        ++ ((ofRoots roots).after settings n).pending.map (·.name.key)).Nodup := by
      refine hbefore.sublist ?_
      rw [hpending, hcollects.table, firstWaves_succ, List.map_append]
      exact (keys_entries_sublist settings _).append_right _
    obtain ⟨hpass, hnext⟩ := collects_pass settings hwave hkeys
    rw [after_succ, firstWaves_succ]
    rw [hpending] at hpass hnext
    exact ⟨hcollects.trans hpass, hnext⟩

/-- No name is numbered in the sweep of the given schemas. -/
def KeepsNames (settings : Settings) (roots : List Pending) : Prop :=
  (Registry.ofPending roots).Grants ((List.range (enough roots)).flatMap fun n =>
    ((ofRoots roots).after settings n).pending.flatMap Pending.derivedNames)

theorem nodup_firstWaves_of_le {m : Nat} (hle : m ≤ n)
    (hnodup : ((firstWaves roots n).map (·.name.key)).Nodup) :
    ((firstWaves roots m).map (·.name.key)).Nodup := by
  induction hle with
  | refl => exact hnodup
  | step _ ih =>
    rw [firstWaves_succ, List.map_append] at hnodup
    exact ih (List.nodup_append.mp hnodup).1

/-- The names asked for in the first passes are those that the first waves ask for. -/
theorem derivedNames_after (hnodup : ((firstWaves roots n).map (·.name.key)).Nodup) :
    ((List.range n).flatMap fun m =>
        ((ofRoots roots).after settings m).pending.flatMap Pending.derivedNames)
      = (firstWaves roots n).flatMap Pending.derivedNames := by
  rw [firstWaves, List.flatMap_assoc]
  refine List.flatMap_congr fun m hm => ?_
  have hlt : m + 1 ≤ n := List.mem_range.mp hm
  rw [(collects_after settings (nodup_firstWaves_of_le hlt hnodup)).2]

/-- **No name is numbered if the schemas of all waves have different names**, and only then. -/
theorem keepsNames_iff (settings : Settings) (hroots : (roots.map (·.name.key)).Nodup) :
    KeepsNames settings roots ↔ ((firstWaves roots (enough roots + 1)).map (·.name.key)).Nodup := by
  suffices hall : ∀ n, (Registry.ofPending roots).Grants ((List.range n).flatMap fun m =>
      ((ofRoots roots).after settings m).pending.flatMap Pending.derivedNames)
        ↔ ((firstWaves roots (n + 1)).map (·.name.key)).Nodup from hall (enough roots)
  intro n
  constructor
  · intro hgrants
    have hnodup : ((firstWaves roots n).map (·.name.key)).Nodup := by
      induction n with
      | zero => exact .nil
      | succ n ih =>
        rw [List.range_succ, List.flatMap_append] at hgrants
        have hbefore := (Registry.grants_append_iff.mp hgrants).1
        exact nodup_firstWaves_succ_iff.mpr ⟨hroots, derivedNames_after (ih hbefore) ▸ hbefore⟩
    rw [derivedNames_after hnodup] at hgrants
    exact nodup_firstWaves_succ_iff.mpr ⟨hroots, hgrants⟩
  · intro hnodup
    rw [derivedNames_after (nodup_firstWaves_of_le n.le_succ hnodup)]
    exact (nodup_firstWaves_succ_iff.mp hnodup).2

end Sweep

/-! ## Resolution -/

/-- The waves end where schemas resolve. -/
theorem waves_eq_nil_of_resolve {settings : Settings} {roots : List Pending}
    {resolution : Resolution}
    (hnodup : ((firstWaves roots (Sweep.enough roots + 1)).map (·.name.key)).Nodup)
    (h : (resolve settings (.ofPending roots) roots).2 = .ok resolution) :
    waves roots (Sweep.enough roots) = [] := by
  obtain ⟨⟨-, hpending⟩, -⟩ := snd_resolve_eq_ok_iff.mp h
  exact (Sweep.collects_after settings hnodup).2.symm.trans hpending

/-- **When schemas resolve that get all names they ask for, and to what**: the waves end, nothing
is wrong with a schema of any wave, and the table of all settles. -/
theorem resolve_eq_ok_iff_of_nodup {settings : Settings} {roots : List Pending}
    {resolution : Resolution}
    (hnodup : ((firstWaves roots (Sweep.enough roots + 1)).map (·.name.key)).Nodup) {n : Nat}
    (hend : waves roots n = []) :
    (resolve settings (.ofPending roots) roots).2 = .ok resolution
      ↔ (∀ pending ∈ firstWaves roots n, pending.fault? settings = none)
        ∧ (ClassTable.settle 0 ((firstWaves roots n).filterMap (Pending.row? settings))).2
          = .ok resolution.entries
        ∧ (firstWaves roots n).flatMap (Pending.warnings settings) = resolution.warnings := by
  have hfinal := Sweep.waves_enough_eq_nil hend
  obtain ⟨hcollects, hpending⟩ := Sweep.collects_after settings hnodup
  have hrun : Sweep.run settings (.ofPending roots) roots
      = (Sweep.ofRoots roots).after settings (Sweep.enough roots) := rfl
  have hnone : (Sweep.run settings (.ofPending roots) roots).pending = [] :=
    hpending.trans hfinal
  rw [firstWaves_eq_of_end hend hfinal, snd_resolve_eq_ok_iff, hnone, hrun, hcollects.faults,
    hcollects.table, hcollects.warnings]
  simp only [Sweep.ofRoots, List.nil_append, List.filterMap_eq_nil_iff, and_true]

end PojoGraph
