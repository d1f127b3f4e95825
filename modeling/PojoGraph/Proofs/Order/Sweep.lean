import Mathlib.Data.List.Perm.Basic
import PojoGraph.Proofs.Classification.Granted
import PojoGraph.Proofs.Run.Course

/-!
# Sweeps in another order

As long as each schema gets the names that it asks for, what a pass adds to a sweep is put
together from what the schemas of the pass give, each by itself. So two sweeps that begin with the
same schemas in another order have, after each pass, the same schemas waiting, the same names
taken, the same entries and the same warnings, all up to order.

## Main definitions

* `Pending.derivedNames` — the names that a schema asks for.
* `Visit.IsGranted` — the visit of a schema that gets the names it asks for.
* `Sweep.Gains` — what a sweep has gained by some visits.
* `Sweep.Alike` — sweeps that are the same up to order.

## Main statements

* `Sweep.gains_pass` — what a pass over granted visits gains.
* `Sweep.Alike.after` — sweeps that are alike stay so, pass by pass.
-/

namespace PojoGraph

/-- The names that the classification of the schema asks for. -/
def Pending.derivedNames (pending : Pending) : List PojoName :=
  pending.schema.derivedNames pending.name

/-! ## Granted visits -/

namespace Visit

/-- The schema gets the names that it asks for. -/
def IsGranted (visit : Visit) : Prop :=
  visit.registry.Grants visit.pending.derivedNames

variable {settings : Settings}

/-- Where all names asked for by a chain of visits are granted at its beginning, each visit is
granted. -/
theorem Chain.isGranted {before after : Registry} {visits : List Visit}
    (h : Chain before visits after) (hvalid : ∀ visit ∈ visits, visit.IsValid settings)
    (hgrants : before.Grants (visits.flatMap (·.pending.derivedNames))) :
    ∀ visit ∈ visits, visit.IsGranted := by
  induction h with
  | nil registry => simp
  | cons visit hrest ih =>
    rw [List.flatMap_cons] at hgrants
    obtain ⟨hfirst, hothers⟩ := Registry.grants_append_iff.mp hgrants
    have hregistry : (visit.registry.claimAll visit.pending.derivedNames).2
        = visit.survey.registry :=
      congrArg (·.2) (claimAll_classify (hvalid visit List.mem_cons_self))
    rw [hregistry] at hothers
    exact List.forall_mem_cons.mpr
      ⟨hfirst, ih (fun other hother => hvalid other (List.mem_cons_of_mem _ hother)) hothers⟩

end Visit

/-! ## What visits gain -/

namespace Sweep

/-- What a sweep has gained by visits of some schemas. -/
structure Gains (visits : List Visit) (before after : Sweep) : Prop where
  pending : after.pending = before.pending ++ visits.flatMap (·.survey.found)
  registry : after.registry
    = (before.registry.claimAll (visits.flatMap (·.pending.derivedNames))).2
  table : after.table = before.table ++ visits.map Visit.entry
  warnings : after.warnings = before.warnings ++ visits.flatMap (·.survey.warnings)
  faults : after.faults = before.faults

variable {settings : Settings} {sweep : Sweep}

theorem Gains.trans {visits others : List Visit} {before middle after : Sweep}
    (h : Gains visits before middle) (h' : Gains others middle after) :
    Gains (visits ++ others) before after where
  pending := by rw [h'.pending, h.pending, List.flatMap_append, List.append_assoc]
  registry := by
    rw [h'.registry, h.registry, List.flatMap_append, Registry.claimAll_append]
  table := by rw [h'.table, h.table, List.map_append, List.append_assoc]
  warnings := by rw [h'.warnings, h.warnings, List.flatMap_append, List.append_assoc]
  faults := h'.faults.trans h.faults

/-- A step gains what a granted visit of the schema gives, whatever else is taken. -/
theorem gains_step {visit : Visit} (hvalid : visit.IsValid settings) (hgranted : visit.IsGranted)
    (hgrants : sweep.registry.Grants visit.pending.derivedNames)
    (hnew : visit.pending.name.key ∉ Dictionary.keys sweep.table) :
    Gains [visit] sweep (sweep.step settings visit.pending) := by
  -- The visit may have found other names taken than this sweep has, but all it asks for is free
  -- in both.
  have hsame : withoutNames (classify settings visit.pending visit.registry)
      = withoutNames (classify settings visit.pending sweep.registry) :=
    classify_of_grants hgranted hgrants
  rw [hvalid] at hsame
  rw [step]
  cases hclassify : classify settings visit.pending sweep.registry with
  | error fault => rw [hclassify] at hsame; cases hsame
  | ok result =>
    obtain ⟨classified, survey⟩ := result
    rw [hclassify] at hsame
    obtain ⟨hclassified, hfound, hwarnings⟩ : visit.classified = classified
        ∧ visit.survey.found = survey.found ∧ visit.survey.warnings = survey.warnings := by
      simpa [withoutNames, Except.map] using hsame
    have hkey : classified.name.key = visit.pending.name.key := by
      rw [name_of_classify hclassify]
    have hregistry : survey.registry
        = (sweep.registry.claimAll visit.pending.derivedNames).2 :=
      (congrArg (·.2) (claimAll_classify hclassify)).symm
    refine ⟨?_, ?_, ?_, ?_, rfl⟩
    · simp [hfound]
    · simpa using hregistry
    · dsimp only
      rw [hkey, Dictionary.insert_of_not_mem hnew]
      simp [Visit.entry, hclassified]
    · simp [hwarnings]

/-- Steps through granted visits gain what each of them gives. -/
theorem gains_steps {visits : List Visit} (hvalid : ∀ visit ∈ visits, visit.IsValid settings)
    (hgranted : ∀ visit ∈ visits, visit.IsGranted)
    (hgrants : sweep.registry.Grants (visits.flatMap (·.pending.derivedNames)))
    (hnodup : (Dictionary.keys sweep.table ++ visits.map (·.pending.name.key)).Nodup) :
    Gains visits sweep ((visits.map (·.pending)).foldl (step settings) sweep) := by
  induction visits generalizing sweep with
  | nil => exact ⟨by simp, rfl, by simp, by simp, rfl⟩
  | cons visit rest ih =>
    rw [List.flatMap_cons] at hgrants
    obtain ⟨hfirst, hothers⟩ := Registry.grants_append_iff.mp hgrants
    have hnew : visit.pending.name.key ∉ Dictionary.keys sweep.table := by
      intro hmem
      exact (List.nodup_append.mp hnodup).2.2 _ hmem _ List.mem_cons_self rfl
    have hstep : Gains [visit] sweep (sweep.step settings visit.pending) :=
      gains_step (hvalid visit List.mem_cons_self) (hgranted visit List.mem_cons_self) hfirst hnew
    refine hstep.trans (ih (fun other hother => hvalid other (List.mem_cons_of_mem _ hother))
      (fun other hother => hgranted other (List.mem_cons_of_mem _ hother)) ?_ ?_)
    · rw [hstep.registry]
      simpa using hothers
    · rw [hstep.table]
      simpa [Dictionary.keys, Visit.entry] using hnodup

/-- **What a pass gains**, if its schemas get the names that they ask for: what the visit of each
schema gives. -/
theorem gains_pass {visits : List Visit} (hvalid : ∀ visit ∈ visits, visit.IsValid settings)
    (hgranted : ∀ visit ∈ visits, visit.IsGranted)
    (hpending : sweep.pending = visits.map (·.pending))
    (hgrants : sweep.registry.Grants (visits.flatMap (·.pending.derivedNames)))
    (hnodup : (Dictionary.keys sweep.table ++ visits.map (·.pending.name.key)).Nodup) :
    Gains visits sweep.begin (sweep.pass settings) := by
  rw [pass]
  cases hempty : sweep.pending.isEmpty with
  | true =>
    rw [List.isEmpty_iff] at hempty
    obtain rfl : visits = [] := by rwa [hempty, eq_comm, List.map_eq_nil_iff] at hpending
    exact ⟨by simp [begin, hempty], rfl, by simp [begin], by simp [begin], rfl⟩
  | false =>
    rw [if_neg (by simp), hpending]
    exact gains_steps hvalid hgranted hgrants hnodup

/-! ## Two sweeps -/

/-- The sweeps are the same up to order. -/
structure Alike (sweep sweep' : Sweep) : Prop where
  pending : sweep.pending.Perm sweep'.pending
  registry : sweep.registry.keys.Perm sweep'.registry.keys
  table : sweep.table.Perm sweep'.table
  warnings : sweep.warnings.Perm sweep'.warnings
  faults : sweep.faults = sweep'.faults

/-- What the same visits gain in another order is the same up to order. -/
theorem Gains.alike {visits visits' : List Visit} {before before' after after' : Sweep}
    (h : Gains visits before after) (h' : Gains visits' before' after')
    (hvisits : visits.Perm visits') (hbefore : before.Alike before')
    (hgrants : before.registry.Grants (visits.flatMap (·.pending.derivedNames))) :
    after.Alike after' where
  pending := by
    rw [h.pending, h'.pending]
    exact hbefore.pending.append (hvisits.flatMap_right _)
  registry := by
    have hnames := hvisits.flatMap_right (·.pending.derivedNames)
    have hgrants' := hgrants.of_perm hnames hbefore.registry
    rw [h.registry, h'.registry, hgrants.keys, hgrants'.keys]
    refine List.Perm.append ?_ hbefore.registry
    exact (List.reverse_perm _).trans ((hnames.map _).trans (List.reverse_perm _).symm)
  table := by
    rw [h.table, h'.table]
    exact hbefore.table.append (hvisits.map _)
  warnings := by
    rw [h.warnings, h'.warnings]
    exact hbefore.warnings.append (hvisits.flatMap_right _)
  faults := by rw [h.faults, h'.faults, hbefore.faults]

namespace Alike

variable {sweep' : Sweep}

theorem pass (h : sweep.Alike sweep') {visits : List Visit}
    (hvalid : ∀ visit ∈ visits, visit.IsValid settings)
    (hgranted : ∀ visit ∈ visits, visit.IsGranted)
    (hpending : sweep.pending = visits.map (·.pending))
    (hgrants : sweep.registry.Grants (visits.flatMap (·.pending.derivedNames)))
    (hnodup : (Dictionary.keys sweep.table ++ visits.map (·.pending.name.key)).Nodup) :
    (sweep.pass settings).Alike (sweep'.pass settings) := by
  obtain ⟨visits', hpending', hvisits⟩ :
      ∃ visits' : List Visit, sweep'.pending = visits'.map (·.pending) ∧ visits'.Perm visits :=
    (congrFun₂ (List.eq_map_comp_perm _) _ _).mpr (hpending ▸ h.pending.symm)
  have hnodup' : (Dictionary.keys sweep'.table ++ visits'.map (·.pending.name.key)).Nodup :=
    (((h.table.map _).append (hvisits.symm.map _)).nodup_iff).mp hnodup
  have hpass : Gains visits sweep.begin (sweep.pass settings) :=
    gains_pass hvalid hgranted hpending hgrants hnodup
  have hpass' : Gains visits' sweep'.begin (sweep'.pass settings) :=
    gains_pass (fun visit hvisit => hvalid visit (hvisits.mem_iff.mp hvisit))
      (fun visit hvisit => hgranted visit (hvisits.mem_iff.mp hvisit)) hpending'
      (hgrants.of_perm (hvisits.symm.flatMap_right _) h.registry) hnodup'
  exact hpass.alike hpass' hvisits.symm
    ⟨.refl [], h.registry, h.table, h.warnings, h.faults⟩ hgrants

/-- **Sweeps that are the same up to order stay so**, if one of them reports no fault and gets
all names that it asks for. -/
theorem after (h : sweep.Alike sweep') {roots : List Pending}
    (haccounts : Accounts settings roots [] [] sweep) (n : Nat)
    (hfaults : (sweep.after settings n).faults = [])
    (hgrants : sweep.registry.Grants ((List.range n).flatMap fun m =>
      (sweep.after settings m).pending.flatMap Pending.derivedNames)) :
    (sweep.after settings n).Alike (sweep'.after settings n) := by
  induction n with
  | zero => exact h
  | succ n ih =>
    rw [after_succ] at hfaults ⊢
    rw [after_succ]
    have hclean : (sweep.after settings n).faults = [] := by
      have hprefix := faults_pass settings (sweep.after settings n)
      rw [hfaults] at hprefix
      exact List.prefix_nil.mp hprefix
    obtain ⟨visits, hvisits, hchain, hbefore⟩ := haccounts.after_chained n hclean
    obtain ⟨visited, hvisited, hchained, hall⟩ := hbefore.pass hfaults
    -- The names that the next pass asks for are claimed after those of all passes before it.
    rw [List.range_succ, List.flatMap_append, List.flatMap_singleton] at hgrants
    obtain ⟨hearlier, hnow⟩ := Registry.grants_append_iff.mp hgrants
    have hnames : (List.range n).flatMap (fun m =>
        (sweep.after settings m).pending.flatMap Pending.derivedNames)
          = visits.flatMap (·.pending.derivedNames) := by
      rw [← List.flatMap_assoc, ← hvisits, List.flatMap_map]
    have hregistry : (sweep.registry.claimAll (visits.flatMap (·.pending.derivedNames))).2
        = (sweep.after settings n).registry := congrArg (·.2) (hchain.claimAll hbefore.valid)
    rw [hnames, hregistry, ← hvisited, List.flatMap_map] at hnow
    have hvalid : ∀ visit ∈ visited, visit.IsValid settings :=
      fun visit hvisit => hall.valid visit (List.mem_append_right _ hvisit)
    refine (ih hclean hearlier).pass hvalid (hchained.isGranted hvalid hnow) hvisited.symm hnow ?_
    have hnodup := hbefore.nodup
    rw [List.nil_append, ← hvisited, ← List.map_append, List.map_map] at hnodup
    rw [hbefore.table]
    simpa [Dictionary.keys, Visit.entry, Function.comp_def] using hnodup

end Alike

end Sweep

end PojoGraph
