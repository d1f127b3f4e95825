import Mathlib.Data.List.Flatten
import PojoGraph.Proofs.Frame.Resolution
import PojoGraph.Proofs.Sweep.Waves

/-!
# Sweeps with more schemas

A sweep of some schemas finds in these what it finds in them without the others. So if all get
the names that they ask for, the table of the sweep has the table of the others as its part, and
this part mentions no names but those of the others and those that they refer to.

## Main definitions

* `isApartFrom` — the keys that no schema of some first waves has.

## Main statements

* `filter_firstWaves` — the first waves without what is found in extra schemas.
* `restrict_entries_firstWaves`, `within_entries_firstWaves` — the table of the others.
* `resolve_part` — the others resolve to their part of the whole.
-/

namespace PojoGraph

variable {settings : Settings} {P : PojoName → Prop}

/-! ## Entries within a scope -/

theorem Pending.mem_firstWaves_of_mem_offspring {roots : List Pending} {n : Nat}
    {pending inner : Pending} (h : pending ∈ firstWaves roots n) (hinner : inner ∈ pending.offspring) :
    inner ∈ firstWaves roots (n + 1) := by
  obtain ⟨m, hm, hwave⟩ := mem_firstWaves_iff.mp h
  exact mem_firstWaves_iff.mpr
    ⟨m + 1, Nat.succ_lt_succ hm, List.mem_flatMap.mpr ⟨pending, hwave, hinner⟩⟩

/-- If the schemas of the first waves have different names, each gets those that it asks for. -/
theorem Pending.grants_of_mem_firstWaves {roots : List Pending} {n : Nat} {pending : Pending}
    (hnodup : ((firstWaves roots (n + 1)).map (·.name.key)).Nodup)
    (h : pending ∈ firstWaves roots n) : ({} : Registry).Grants pending.derivedNames := by
  obtain ⟨-, hgrants⟩ := nodup_firstWaves_succ_iff.mp hnodup
  obtain ⟨first, rest, heq⟩ := List.append_of_mem h
  have hkeys := (Registry.grants_iff.mp hgrants).1
  rw [heq, List.flatMap_append, List.flatMap_cons, List.map_append, List.map_append] at hkeys
  refine Registry.grants_iff.mpr ⟨?_, fun _ _ hmem => nomatch hmem⟩
  exact (List.nodup_append.mp (List.nodup_append.mp hkeys).2.1).1

theorem refersWithin_of_mem_firstWaves {roots : List Pending}
    (hroots : ∀ root ∈ roots, root.schema.RefersWithin settings P) {n : Nat} {pending : Pending}
    (h : pending ∈ firstWaves roots n) : pending.schema.RefersWithin settings P := by
  obtain ⟨m, -, hwave⟩ := mem_firstWaves_iff.mp h
  clear h
  induction m generalizing pending with
  | zero => exact hroots pending hwave
  | succ m ih =>
    obtain ⟨outer, houter, hinner⟩ := List.mem_flatMap.mp hwave
    refine (ih houter).discovered ?_
    rw [← outer.schemas_offspring]
    exact List.mem_map_of_mem hinner

/-- An entry is within each scope that has the names of the schema, of its references and of its
offspring. -/
theorem Pending.within_entry {pending : Pending}
    (hgrants : ({} : Registry).Grants pending.derivedNames) (hname : P pending.name)
    (hrefers : pending.schema.RefersWithin settings P)
    (hoffspring : ∀ inner ∈ pending.offspring, P inner.name) {entry : String × Classified}
    (h : pending.row? settings = some entry) : entry.2.Within P := by
  rw [row?, outcome] at h
  cases hclassify : classify settings pending {} with
  | error fault => simp [hclassify, withoutNames, Except.map] at h
  | ok result =>
    obtain ⟨classified, survey⟩ := result
    simp only [hclassify, withoutNames, Except.map, Option.some.injEq] at h
    subst h
    refine within_classify hclassify hname hrefers ?_
    rwa [found_of_grants hgrants hclassify]

/-- Entries stand at the keys of their names. -/
theorem isKeyed_entries (pendings : List Pending) :
    ClassTable.IsKeyed (pendings.filterMap (Pending.row? settings)) := by
  intro entry hentry
  obtain ⟨pending, -, h⟩ := List.mem_filterMap.mp hentry
  rw [Pending.row?, Pending.outcome] at h
  cases hclassify : classify settings pending {} with
  | error fault => simp [hclassify, withoutNames, Except.map] at h
  | ok result =>
    obtain ⟨classified, survey⟩ := result
    simp only [hclassify, withoutNames, Except.map, Option.some.injEq] at h
    subst h
    exact congrArg PojoName.key (name_of_classify hclassify)

/-! ## Extra schemas -/

/-- No schema of the first waves has the key. -/
def isApartFrom (extras : List Pending) (n : Nat) (key : String) : Bool :=
  !((firstWaves extras n).map (·.name.key)).contains key

variable {before extras after : List Pending} {n : Nat}

theorem isApartFrom_eq_false_iff {key : String} : isApartFrom extras n key = false
    ↔ ∃ pending ∈ firstWaves extras n, pending.name.key = key := by
  rw [isApartFrom, Bool.not_eq_false', List.contains_iff_mem, List.mem_map]

theorem isApartFrom_iff {key : String} : isApartFrom extras n key = true
    ↔ ∀ pending ∈ firstWaves extras n, pending.name.key ≠ key := by
  rw [← Bool.not_eq_false, isApartFrom_eq_false_iff]
  simp

/-- The first waves with extra schemas are those without, and those of the extra schemas. -/
theorem firstWaves_extras_perm (before extras after : List Pending) (n : Nat) :
    (firstWaves (before ++ extras ++ after) n).Perm
      (firstWaves (before ++ after) n ++ firstWaves extras n) := by
  have hroots : (before ++ extras ++ after).Perm (before ++ after ++ extras) := by
    rw [List.append_assoc, List.append_assoc]
    exact List.perm_append_comm.append_left before
  exact (firstWaves_of_perm hroots n).trans (firstWaves_append_perm _ _ n)

section

variable (hnodup : ((firstWaves (before ++ extras ++ after) n).map (·.name.key)).Nodup)

include hnodup

/-- The others have none of the names of the extra schemas. -/
theorem isApartFrom_of_mem_firstWaves {pending : Pending}
    (h : pending ∈ firstWaves (before ++ after) n) :
    isApartFrom extras n pending.name.key = true := by
  rw [isApartFrom_iff]
  intro extra hextra heq
  have hkeys := ((firstWaves_extras_perm before extras after n).map (·.name.key)).nodup_iff.mp hnodup
  rw [List.map_append, List.nodup_append] at hkeys
  exact hkeys.2.2 _ (List.mem_map_of_mem h) _ (List.mem_map_of_mem hextra) heq.symm

/-- **Without what is found in extra schemas, the first waves are those of the others.** -/
theorem filter_firstWaves :
    (firstWaves (before ++ extras ++ after) n).filter (fun pending =>
        isApartFrom extras n pending.name.key)
      = firstWaves (before ++ after) n := by
  have hothers : ∀ pendings : List Pending, (∀ pending ∈ pendings,
      pending ∈ firstWaves (before ++ after) n) → pendings.filter (fun pending =>
        isApartFrom extras n pending.name.key) = pendings :=
    fun pendings hall => List.filter_eq_self.mpr fun pending hpending =>
      isApartFrom_of_mem_firstWaves hnodup (hall pending hpending)
  rw [firstWaves, firstWaves, List.filter_flatMap]
  refine List.flatMap_congr fun m hm => ?_
  have hlt : m < n := List.mem_range.mp hm
  have hextras : (waves extras m).filter (fun pending => isApartFrom extras n pending.name.key)
      = [] := by
    refine List.filter_eq_nil_iff.mpr fun pending hpending => ?_
    rw [Bool.not_eq_true]
    exact isApartFrom_eq_false_iff.mpr
      ⟨pending, mem_firstWaves_iff.mpr ⟨m, hlt, hpending⟩, rfl⟩
  have hwave : ∀ pending ∈ waves before m ++ waves after m,
      pending ∈ firstWaves (before ++ after) n := by
    intro pending hpending
    rw [← waves_append] at hpending
    exact mem_firstWaves_iff.mpr ⟨m, hlt, hpending⟩
  rw [waves_append, waves_append, waves_append, List.filter_append, List.filter_append,
    hextras, List.append_nil, ← List.filter_append]
  exact hothers _ hwave

/-- **The table of the others is their part of the whole table.** -/
theorem restrict_entries_firstWaves :
    ClassTable.restrict (isApartFrom extras n)
        ((firstWaves (before ++ extras ++ after) n).filterMap (Pending.row? settings))
      = (firstWaves (before ++ after) n).filterMap (Pending.row? settings) := by
  rw [← filter_firstWaves hnodup, ClassTable.restrict, List.filter_filterMap,
    List.filterMap_filter]
  refine List.filterMap_congr fun pending _ => ?_
  rw [Pending.row?]
  cases pending.outcome settings with
  | error fault => simp
  | ok result =>
    cases hown : isApartFrom extras n pending.name.key <;> simp [Option.filter, hown]

end

/-- **The table of the others mentions no name of the extra schemas**, if none of them refers to
one. -/
theorem within_entries_firstWaves
    (hnodup : ((firstWaves (before ++ extras ++ after) (n + 1)).map (·.name.key)).Nodup)
    (hend : waves extras n = [])
    (hrefers : ∀ root ∈ before ++ after,
      root.schema.RefersWithin settings (Owns (isApartFrom extras n))) :
    ClassTable.Within (Owns (isApartFrom extras n))
      ((firstWaves (before ++ after) n).filterMap (Pending.row? settings)) := by
  have hsame : isApartFrom extras (n + 1) = isApartFrom extras n := by
    unfold isApartFrom
    rw [firstWaves_eq_of_le hend n.le_succ]
  have hown : ∀ pending ∈ firstWaves (before ++ after) (n + 1),
      Owns (isApartFrom extras n) pending.name := by
    intro pending hpending
    rw [Owns, ← hsame]
    exact isApartFrom_of_mem_firstWaves hnodup hpending
  have hothers : ((firstWaves (before ++ after) (n + 1)).map (·.name.key)).Nodup := by
    have hkeys := ((firstWaves_extras_perm before extras after (n + 1)).map
      (·.name.key)).nodup_iff.mp hnodup
    rw [List.map_append] at hkeys
    exact (List.nodup_append.mp hkeys).1
  intro entry hentry
  obtain ⟨pending, hpending, h⟩ := List.mem_filterMap.mp hentry
  refine Pending.within_entry (Pending.grants_of_mem_firstWaves hothers hpending) ?_
    (refersWithin_of_mem_firstWaves hrefers hpending) ?_ h
  · refine hown pending ?_
    rw [firstWaves_succ]
    exact List.mem_append_left _ hpending
  · exact fun inner hinner => hown inner (Pending.mem_firstWaves_of_mem_offspring hpending hinner)

/-! ## Resolution -/

/-- **Schemas resolve to their part of what they resolve to with extra ones**, if no name is
numbered and none of them refers to what is found in the extra ones. -/
theorem resolve_part {resolution : Resolution}
    (hnodup : ((firstWaves (before ++ extras ++ after)
      (Sweep.enough (before ++ extras ++ after) + 1)).map (·.name.key)).Nodup)
    (hrefers : ∀ root ∈ before ++ after, root.schema.RefersWithin settings
      (Owns (isApartFrom extras (Sweep.enough (before ++ extras ++ after)))))
    (h : (resolve settings (.ofPending (before ++ extras ++ after))
      (before ++ extras ++ after)).2 = .ok resolution) :
    ∃ others, (resolve settings (.ofPending (before ++ after)) (before ++ after)).2 = .ok others
      ∧ others.entries = resolution.entries.filter (fun resolved =>
        isApartFrom extras (Sweep.enough (before ++ extras ++ after)) resolved.name.key)
      ∧ (∀ resolved ∈ others.entries, resolved.Within
        (Owns (isApartFrom extras (Sweep.enough (before ++ extras ++ after)))))
      ∧ others.warnings.Sublist resolution.warnings := by
  generalize hn : Sweep.enough (before ++ extras ++ after) = n at hrefers ⊢
  have hend : waves (before ++ extras ++ after) n = [] :=
    hn ▸ waves_eq_nil_of_resolve hnodup h
  obtain ⟨hfaults, hsettle, hwarnings⟩ := (resolve_eq_ok_iff_of_nodup hnodup hend).mp h
  rw [hn] at hnodup
  obtain ⟨hbefore, hextras, hafter⟩ : waves before n = [] ∧ waves extras n = []
      ∧ waves after n = [] := by
    simpa [waves_append] using hend
  have hnone : waves (before ++ after) n = [] := by rw [waves_append, hbefore, hafter]; rfl
  have hfinite : ((firstWaves (before ++ extras ++ after) n).map (·.name.key)).Nodup :=
    Sweep.nodup_firstWaves_of_le n.le_succ hnodup
  have hothers := filter_firstWaves hfinite
  have hkeys : ((firstWaves (before ++ after)
      (Sweep.enough (before ++ after) + 1)).map (·.name.key)).Nodup := by
    have hlast := waves_eq_nil_of_le (Sweep.waves_enough_eq_nil hnone) (Nat.le_succ _)
    rw [firstWaves_eq_of_end hlast hnone, ← hothers]
    exact hfinite.sublist (List.filter_sublist.map _)
  have hwithin := within_entries_firstWaves hnodup hextras hrefers
  rw [← restrict_entries_firstWaves hfinite] at hwithin
  have hpart := ClassTable.settle_restrict (isKeyed_entries _) hwithin hsettle 0
  refine ⟨⟨_, (firstWaves (before ++ after) n).flatMap (Pending.warnings settings)⟩,
    (resolve_eq_ok_iff_of_nodup hkeys hnone).mpr ⟨?_, ?_, rfl⟩, rfl, ?_, ?_⟩
  · intro pending hpending
    rw [← hothers] at hpending
    exact hfaults pending (List.mem_of_mem_filter hpending)
  · rw [← restrict_entries_firstWaves hfinite, hpart]
  · exact hwithin.settle hpart
  · rw [← hothers, ← hwarnings]
    exact List.filter_sublist.flatMap _

end PojoGraph
