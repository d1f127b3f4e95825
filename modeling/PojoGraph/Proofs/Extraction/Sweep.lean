import PojoGraph.Proofs.Extraction.Schemas
import PojoGraph.Proofs.Frame.Sweep
import PojoGraph.Proofs.Order.Resolution
import PojoGraph.Proofs.PojoSet.Descriptions

/-!
# Sweeps of schemas that are alike

Two schemas are alike if they have the same name and turn out to be the same up to a revision. If
two sweeps find the same schemas, but for two that are alike, their tables are the same up to the
revision, and so is what they resolve to.

## Main definitions

* `Pending.Alike` — schemas that are the same up to a revision.
* `DistinctWaves` — waves that have ended, with schemas of different names.

## Main statements

* `ClassTable.settle_of_revise_perm` — tables that are the same up to a revision settle alike.
* `resolve_of_alike` — schemas that are alike resolve to the same, up to the revision.
* `Extraction.firstWaves_perm` — what is found with the object in place, and with a reference.
-/

namespace PojoGraph

variable {settings : Settings}

/-! ## Tables -/

/-- Passing descriptions on does not interfere with resolution. -/
theorem Revision.isFaithful_describe (P : PojoName → Prop) (given : List Described) :
    (sequence describe given).IsFaithful P id where
  key name _ := by rw [name_sequence_describe, id]
  injective := Function.injective_id
  raw name := by rw [name_sequence_describe]
  objectName? type := by
    rw [type_sequence_describe, name_describeAll, Option.map_id, id]
  freeForm := type_sequence_describe given _
  members := keepsMembers_sequence keepsMembers_describe given

/-- **Tables that are the same up to a revision and up to order settle to the same**, up to
both. -/
theorem ClassTable.settle_of_revise_perm {P : PojoName → Prop} {r : Revision}
    (hr : r.IsFaithful P id) {table table' : ClassTable} (htable : table.Within P)
    (htable' : table'.Within P) (hnodup : (Dictionary.keys table).Nodup)
    (hperm : (table.revise r id).Perm (table'.revise r id)) {number : Nat}
    {entries : List Resolved} (hsettle : (settle number table).2 = .ok entries) :
    ∃ entries', (settle number table').2 = .ok entries'
      ∧ (entries.map (Resolved.revise r)).Perm (entries'.map (Resolved.revise r)) := by
  have hrevise := settle_revise hr htable number
  have hrevise' := settle_revise hr htable' number
  have hkeys : (Dictionary.keys (table.revise r id)).Nodup := by
    have hsame : Dictionary.keys (table.revise r id) = Dictionary.keys table := List.map_map
    rwa [hsame]
  rw [hsettle] at hrevise
  obtain ⟨revised, hrevised, hentries⟩ := settle_of_perm hperm hkeys hrevise
  rw [hrevised] at hrevise'
  cases hresult : (settle number table').2 with
  | error failure => rw [hresult] at hrevise'; cases hrevise'
  | ok entries' =>
    rw [hresult] at hrevise'
    cases hrevise'
    exact ⟨entries', rfl, hentries⟩

/-! ## Schemas that are alike -/

/-- The schemas have the same name and turn out to be the same, up to the revision; what is wrong
with them, and what they are warned of, is the same. -/
structure Pending.Alike (settings : Settings) (r : Revision) (pending pending' : Pending) :
    Prop where
  name : pending.name = pending'.name
  entry : (pending.row? settings).map (fun entry => (entry.1, entry.2.revise r))
    = (pending'.row? settings).map (fun entry => (entry.1, entry.2.revise r))
  warnings : pending.warnings settings = pending'.warnings settings
  fault : pending.fault? settings = pending'.fault? settings

theorem Pending.Alike.symm {r : Revision} {pending pending' : Pending}
    (h : pending.Alike settings r pending') : pending'.Alike settings r pending :=
  ⟨h.name.symm, h.entry.symm, h.warnings.symm, h.fault.symm⟩

section

variable {roots roots' found : List Pending} {pending pending' : Pending} {n n' : Nat}

theorem nodup_keys_entries {visited : List Pending} (h : (visited.map (·.name.key)).Nodup) :
    (Dictionary.keys (visited.filterMap (Pending.row? settings))).Nodup :=
  (Sweep.keys_entries_sublist settings visited).nodup h

/-- The waves have ended by then, and all their schemas have different names. -/
structure DistinctWaves (roots : List Pending) (n : Nat) : Prop where
  eq_nil : waves roots n = []
  nodup : ((firstWaves roots n).map (·.name.key)).Nodup

/-- No two schemas of any waves have one name. -/
theorem DistinctWaves.nodup_firstWaves (h : DistinctWaves roots n) (m : Nat) :
    ((firstWaves roots m).map (·.name.key)).Nodup := by
  rcases Nat.le_total m n with hle | hle
  · exact Sweep.nodup_firstWaves_of_le hle h.nodup
  · rw [firstWaves_eq_of_le h.eq_nil hle]
    exact h.nodup

theorem DistinctWaves.nodup_roots (h : DistinctWaves roots n) :
    (roots.map (·.name.key)).Nodup := by
  have hfirst := h.nodup_firstWaves 1
  rwa [firstWaves_succ_left, firstWaves, List.range_zero, List.flatMap_nil, List.append_nil]
    at hfirst

/-- Schemas with such waves resolve if nothing is wrong with any of them, and their table
settles. -/
theorem DistinctWaves.resolve_eq_ok_iff (h : DistinctWaves roots n) {resolution : Resolution} :
    (resolve settings (.ofPending roots) roots).2 = .ok resolution
      ↔ (∀ pending ∈ firstWaves roots n, pending.fault? settings = none)
        ∧ (ClassTable.settle 0 ((firstWaves roots n).filterMap (Pending.row? settings))).2
          = .ok resolution.entries
        ∧ (firstWaves roots n).flatMap (Pending.warnings settings) = resolution.warnings :=
  resolve_eq_ok_iff_of_nodup (h.nodup_firstWaves _) h.eq_nil

/-- The names in a table are in every scope that has all names. -/
theorem DistinctWaves.within_entries (h : DistinctWaves roots n) :
    ClassTable.Within (fun _ => True) ((firstWaves roots n).filterMap (Pending.row? settings)) := by
  intro entry hentry
  obtain ⟨pending, hpending, hsome⟩ := List.mem_filterMap.mp hentry
  have hgrants := Pending.grants_of_mem_firstWaves (h.nodup_firstWaves (n + 1)) hpending
  exact Pending.within_entry hgrants trivial (fun _ _ => trivial) (fun _ _ => trivial) hsome

/-- **Schemas of which two are alike resolve to the same**, up to the revision and up to order, if
no name is numbered. -/
theorem resolve_of_alike {r : Revision} (hr : r.IsFaithful (fun _ => True) id)
    (halike : pending.Alike settings r pending') (hwaves : DistinctWaves roots n)
    (hfound : (firstWaves roots n).Perm (pending :: found)) (hwaves' : DistinctWaves roots' n')
    (hfound' : (firstWaves roots' n').Perm (pending' :: found)) {resolution : Resolution}
    (h : (resolve settings (.ofPending roots) roots).2 = .ok resolution) :
    ∃ resolution', (resolve settings (.ofPending roots') roots').2 = .ok resolution'
      ∧ (resolution.entries.map (Resolved.revise r)).Perm
        (resolution'.entries.map (Resolved.revise r))
      ∧ resolution.warnings.Perm resolution'.warnings := by
  obtain ⟨hfaults, hsettle, hwarnings⟩ := hwaves.resolve_eq_ok_iff.mp h
  have hrevise : ∀ visited : List Pending,
      ClassTable.revise r id (visited.filterMap (Pending.row? settings))
        = visited.filterMap fun pending =>
          (pending.row? settings).map fun entry => (entry.1, entry.2.revise r) :=
    fun visited => List.map_filterMap
  have htables : (ClassTable.revise r id
      ((firstWaves roots n).filterMap (Pending.row? settings))).Perm
        (ClassTable.revise r id ((firstWaves roots' n').filterMap (Pending.row? settings))) := by
    rw [hrevise, hrevise]
    refine (hfound.filterMap _).trans (.trans (.of_eq ?_) (hfound'.filterMap _).symm)
    rw [List.filterMap_cons, List.filterMap_cons, halike.entry]
  obtain ⟨entries', hsettle', hentries⟩ := ClassTable.settle_of_revise_perm hr
    hwaves.within_entries hwaves'.within_entries (nodup_keys_entries hwaves.nodup) htables hsettle
  refine ⟨⟨entries', (firstWaves roots' n').flatMap (Pending.warnings settings)⟩,
    hwaves'.resolve_eq_ok_iff.mpr ⟨?_, hsettle', rfl⟩, hentries, ?_⟩
  · intro other hother
    rcases List.mem_cons.mp (hfound'.mem_iff.mp hother) with rfl | hother
    · rw [← halike.fault]
      exact hfaults pending (hfound.mem_iff.mpr List.mem_cons_self)
    · exact hfaults other (hfound.mem_iff.mpr (List.mem_cons_of_mem _ hother))
  · rw [← hwarnings]
    refine (hfound.flatMap_right _).trans (.trans (.of_eq ?_) (hfound'.flatMap_right _).symm)
    rw [List.flatMap_cons, List.flatMap_cons, halike.warnings]

end

/-! ## With the object in place, and with a reference -/

namespace Extraction

variable (e : Extraction)

/-- What is found in the schema with the object in place is the object, what is found in that, and
what is found in the schema with a reference. -/
theorem waves_nesting_perm (settings : Settings) (n : Nat) :
    (waves [Pending.ofSchema settings e.nesting] (n + 1)).Perm
      (waves [Pending.ofSchema settings e.extracted] n
        ++ waves [Pending.ofSchema settings e.referring] (n + 1)) := by
  rw [waves_succ_left, waves_succ_left, List.flatMap_singleton, List.flatMap_singleton,
    ← waves_cons]
  exact waves_of_perm e.offspring_nesting n

variable {others : List Pending} {n : Nat}

theorem waves_eq_nil_of_nesting (h : waves (Pending.ofSchema settings e.nesting :: others) n = []) :
    waves (Pending.ofSchema settings e.referring :: Pending.ofSchema settings e.extracted
      :: others) n = [] := by
  rw [waves_cons, List.append_eq_nil_iff] at h
  cases n with
  | zero => cases h.1
  | succ n =>
    have hnesting := e.waves_nesting_perm settings n
    rw [h.1] at hnesting
    obtain ⟨hextracted, hreferring⟩ := List.append_eq_nil_iff.mp hnesting.nil_eq.symm
    rw [waves_cons _ (_ :: others), waves_cons _ others, hreferring,
      waves_eq_nil_of_le hextracted n.le_succ, h.2]
    rfl

theorem waves_eq_nil_of_referring
    (h : waves (Pending.ofSchema settings e.referring :: Pending.ofSchema settings e.extracted
      :: others) n = []) : waves (Pending.ofSchema settings e.nesting :: others) (n + 1) = [] := by
  rw [waves_cons _ (_ :: others), waves_cons _ others, List.append_eq_nil_iff,
    List.append_eq_nil_iff] at h
  obtain ⟨hreferring, hextracted, hothers⟩ := h
  have hnesting := e.waves_nesting_perm settings n
  rw [hextracted, waves_eq_nil_of_le hreferring n.le_succ] at hnesting
  rw [waves_cons, hnesting.eq_nil, waves_eq_nil_of_le hothers n.le_succ]
  rfl

/-- **With the object in place and with a reference the same schemas are found**, but for the
schema itself. The object is one of them. -/
theorem firstWaves_perm (h : waves (Pending.ofSchema settings e.nesting :: others) n = []) :
    ∃ found, Pending.ofSchema settings e.extracted ∈ found
      ∧ (firstWaves (Pending.ofSchema settings e.nesting :: others) n).Perm
        (Pending.ofSchema settings e.nesting :: found)
      ∧ (firstWaves (Pending.ofSchema settings e.referring
        :: Pending.ofSchema settings e.extracted :: others) n).Perm
          (Pending.ofSchema settings e.referring :: found) := by
  have hreferring := e.waves_eq_nil_of_nesting h
  rw [← firstWaves_eq_of_le h n.le_succ, ← firstWaves_eq_of_le hreferring n.le_succ]
  rw [waves_cons _ (_ :: others), waves_cons _ others, List.append_eq_nil_iff,
    List.append_eq_nil_iff] at hreferring
  have hextracted := firstWaves_eq_of_le hreferring.2.1 n.le_succ
  have hone : ∀ pending, firstWaves [pending] (n + 1)
      = pending :: firstWaves pending.offspring n := by
    intro pending
    rw [firstWaves_succ_left, List.flatMap_singleton, List.singleton_append]
  have hnesting : (firstWaves (Pending.ofSchema settings e.nesting).offspring n).Perm
      (firstWaves [Pending.ofSchema settings e.extracted] (n + 1)
        ++ firstWaves (Pending.ofSchema settings e.referring).offspring n) := by
    rw [hextracted]
    exact (firstWaves_of_perm e.offspring_nesting n).trans (firstWaves_cons_perm _ _ n)
  refine ⟨firstWaves [Pending.ofSchema settings e.extracted] (n + 1)
    ++ (firstWaves (Pending.ofSchema settings e.referring).offspring n
      ++ firstWaves others (n + 1)), ?_, ?_, ?_⟩
  · rw [hone]
    exact List.mem_append_left _ List.mem_cons_self
  · refine (firstWaves_cons_perm _ _ _).trans ?_
    rw [hone, List.cons_append, ← List.append_assoc]
    exact (hnesting.append_right _).cons _
  · refine (firstWaves_cons_perm _ _ _).trans ?_
    rw [hone, List.cons_append]
    refine .cons _ (((firstWaves_cons_perm _ _ _).append_left _).trans ?_)
    exact List.perm_append_comm_assoc _ _ _

/-- **The schema with the object in place and the schema with a reference are alike**, if no name
is numbered. -/
theorem alike {roots roots' : List Pending} {n n' : Nat} (hwaves : DistinctWaves roots n)
    (hmem : Pending.ofSchema settings e.nesting ∈ firstWaves roots n)
    (hwaves' : DistinctWaves roots' n')
    (hmem' : Pending.ofSchema settings e.referring ∈ firstWaves roots' n') :
    (Pending.ofSchema settings e.nesting).Alike settings (e.revision settings)
      (Pending.ofSchema settings e.referring) := by
  obtain ⟨hentry, hwarnings, hfault⟩ := e.outcome_nesting
    (Pending.grants_of_mem_firstWaves (hwaves.nodup_firstWaves _) hmem)
    (Pending.grants_of_mem_firstWaves (hwaves'.nodup_firstWaves _) hmem')
  exact ⟨rfl, hentry, hwarnings, hfault⟩

section

variable {roots roots' : List Pending}
  (hroots : roots.Perm (Pending.ofSchema settings e.nesting :: others))
  (hroots' : roots'.Perm
    (Pending.ofSchema settings e.referring :: Pending.ofSchema settings e.extracted :: others))

include hroots hroots'

/-- If the waves of either have ended, with different names, so have those of the other one wave
later, and they have the same schemas but for the schema itself, which is alike in both. -/
theorem exists_found (hwaves : DistinctWaves roots n ∨ DistinctWaves roots' n) :
    ∃ found, Pending.ofSchema settings e.extracted ∈ found
      ∧ (Pending.ofSchema settings e.nesting).Alike settings (e.revision settings)
        (Pending.ofSchema settings e.referring)
      ∧ DistinctWaves roots (n + 1) ∧ DistinctWaves roots' (n + 1)
      ∧ (firstWaves roots (n + 1)).Perm (Pending.ofSchema settings e.nesting :: found)
      ∧ (firstWaves roots' (n + 1)).Perm (Pending.ofSchema settings e.referring :: found) := by
  have hnesting : waves (Pending.ofSchema settings e.nesting :: others) (n + 1) = [] := by
    rcases hwaves with hwaves | hwaves
    · refine waves_eq_nil_of_le ?_ n.le_succ
      exact (hwaves.eq_nil ▸ waves_of_perm hroots n).nil_eq.symm
    · exact e.waves_eq_nil_of_referring (hwaves.eq_nil ▸ waves_of_perm hroots' n).nil_eq.symm
  obtain ⟨found, hmem, hperm, hperm'⟩ := e.firstWaves_perm hnesting
  have hfound := (firstWaves_of_perm hroots _).trans hperm
  have hfound' := (firstWaves_of_perm hroots' _).trans hperm'
  have hkeys : ((firstWaves roots (n + 1)).map (·.name.key)).Perm
      ((firstWaves roots' (n + 1)).map (·.name.key)) := by
    refine (hfound.map _).trans (.trans (.of_eq ?_) (hfound'.map _).symm)
    -- the schema has the same name with the object in place and with a reference
    rw [List.map_cons, List.map_cons]
    rfl
  have hnodup : ((firstWaves roots (n + 1)).map (·.name.key)).Nodup := by
    rcases hwaves with hwaves | hwaves
    · exact hwaves.nodup_firstWaves _
    · exact hkeys.nodup_iff.mpr (hwaves.nodup_firstWaves _)
  have hdistinct : DistinctWaves roots (n + 1) :=
    ⟨(hnesting ▸ waves_of_perm hroots (n + 1)).eq_nil, hnodup⟩
  have hdistinct' : DistinctWaves roots' (n + 1) :=
    ⟨(e.waves_eq_nil_of_nesting hnesting ▸ waves_of_perm hroots' (n + 1)).eq_nil,
      hkeys.nodup_iff.mp hnodup⟩
  have halike := e.alike hdistinct (hfound.mem_iff.mpr List.mem_cons_self) hdistinct'
    (hfound'.mem_iff.mpr List.mem_cons_self)
  exact ⟨found, hmem, halike, hdistinct, hdistinct', hfound, hfound'⟩

end

/-- Where the object is found, its description is that of a type. -/
theorem exists_pojo {roots : List Pending} (hwaves : DistinctWaves roots n)
    (hmem : Pending.ofSchema settings e.extracted ∈ firstWaves roots n) {resolution : Resolution}
    (h : (resolve settings (.ofPending roots) roots).2 = .ok resolution) :
    ∀ described ∈ e.described settings, ∃ pojo, .pojo pojo ∈ resolution.entries
      ∧ pojo.name = described.name ∧ pojo.description = some described.description := by
  obtain ⟨-, hsettle, -⟩ := hwaves.resolve_eq_ok_iff.mp h
  obtain ⟨final, hsettles, -, hentries⟩ := ClassTable.exists_settlesTo hsettle
  obtain ⟨classified, hentry, hbecomes⟩ := e.exists_row_extracted settings
  obtain ⟨resolved, hresolved, hbecome⟩ :=
    hsettles.exists_resolved (List.mem_filterMap.mpr ⟨_, hmem, hentry⟩)
  obtain ⟨pojo, rfl, hname, hdescription⟩ := hbecomes hbecome
  intro described hdescribed
  obtain ⟨text, htext, rfl⟩ : ∃ text, e.inner.description = some text
      ∧ (⟨settings.pojoName e.key, text⟩ : Described) = described := by
    simpa [Extraction.described] using hdescribed
  exact ⟨pojo, hentries ▸ hresolved, hname, hdescription.trans htext⟩

end Extraction

end PojoGraph
