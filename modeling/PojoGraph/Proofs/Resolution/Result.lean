import Mathlib.Data.List.Forall2
import PojoGraph.Proofs.Resolution.FixedPoint

/-!
# The result of resolution

Resolution succeeds if and only if all stubs are resolvable and none has a fault of its own. Then
the final table has the entries of the first one in their places, each stub being the pojo that
it makes with its branches in that table. Where it reports stuck stubs, these are the stubs that
are not resolvable, each with the branch names that keep it from being so.

## Main definitions

* `ClassTable.Becomes`, `ClassTable.SettlesTo` — what the entries are in the final table.
* `ClassTable.IsBlocked` — a branch name that keeps stubs from being resolvable.

## Main statements

* `ClassTable.settlesTo_rounds` — a table without stubs is final.
* `ClassTable.stuck_rounds_eq` — the stuck stubs of the last round.
* `ClassTable.settle_isLeastFixedPoint` — the result of resolution.
-/

namespace PojoGraph

/-! ## Faults of stubs -/

/-- What is wrong with a stub that is ready is no matter of stuck stubs. -/
theorem Stub.ne_unresolvable_of_mem_faults {stub : Stub} {branches : Branches} {fault : Fault}
    (h : fault ∈ stub.faults branches) (stuck : List Stuck) : fault ≠ .unresolvable stuck := by
  rintro rfl
  have hunion : ∀ (sketch : UnionSketch) (objects : List ObjectPojo),
      .unresolvable stuck ∉ sketch.faults stub.name objects := by
    intro sketch objects hmem
    rw [UnionSketch.faults] at hmem
    split at hmem <;> simp at hmem
  simp only [Stub.faults, List.mem_append] at h
  rcases h with (h | h) | h
  · split at h
    · exact hunion _ _ h
    · cases h
  · split at h
    · exact hunion _ _ h
    · cases h
  · obtain ⟨_, -, hfault⟩ := List.mem_map.mp h
    cases hfault

/-- The entry of a table that a resolved schema comes from. -/
def Resolved.entry : Resolved → Classified
  | pojo p => .pojo p
  | plain m => .plain m

@[simp] theorem Resolved.name_entry (resolved : Resolved) :
    resolved.entry.name = resolved.name := by
  cases resolved <;> rfl

namespace ClassTable

variable {table : ClassTable} {stub : Stub}

/-- Rounds do not report stuck stubs as faults. -/
theorem ne_unresolvable_of_mem_faults {fault : Fault} (h : fault ∈ table.faults)
    (stuck : List Stuck) : fault ≠ .unresolvable stuck := by
  obtain ⟨stub, -, hfault⟩ := List.mem_flatMap.mp h
  by_cases hready : table.IsReady stub
  · rw [faults_outcome_of_isReady hready] at hfault
    exact Stub.ne_unresolvable_of_mem_faults hfault stuck
  · by_cases hvalid : table.invalidBranches stub = []
    · simp [outcome_of_not_isReady hready hvalid, Outcome.faults] at hfault
    · rw [outcome_of_invalidBranches hvalid] at hfault
      obtain ⟨⟨kind, name⟩, -, hbranch⟩ := List.mem_filterMap.mp hfault
      obtain ⟨obstacle, -, rfl⟩ := Option.map_eq_some_iff.mp hbranch
      simp

/-! ## The final table -/

/-- What an entry is in the final table: a stub is the pojo that it makes with its branches
there, and anything else is as it was. -/
inductive Becomes (final : ClassTable) : Classified → Classified → Prop where
  | stub {stub : Stub} {pojo : Pojo} (hready : final.IsReady stub)
      (hresolve : stub.resolve (final.branchesOf stub) = .ok pojo) :
    Becomes final (.stub stub) (.pojo pojo)
  | pojo (pojo : Pojo) : Becomes final (.pojo pojo) (.pojo pojo)
  | plain (plain : PlainMember) : Becomes final (.plain plain) (.plain plain)

/-- The final table has the keys of the table in their order, and what its entries become. -/
def SettlesTo (table final : ClassTable) : Prop :=
  List.Forall₂ (fun before after => before.1 = after.1 ∧ final.Becomes before.2 after.2)
    table final

theorem Becomes.name_eq {final : ClassTable} {before after : Classified}
    (h : final.Becomes before after) : after.name = before.name := by
  cases h with
  | @stub stub pojo hready hresolve =>
    obtain ⟨-, rfl⟩ := resolve_eq_ok_iff.mp hresolve
    exact stub.name_toPojo _
  | pojo pojo => rfl
  | plain plain => rfl

/-- The entries of the final table are what the entries of the table become, one for each. -/
theorem SettlesTo.entries {final : ClassTable} (h : table.SettlesTo final) :
    List.Forall₂ (fun before resolved => final.Becomes before.2 resolved.entry)
      table final.entries := by
  suffices hlist : ∀ before after : ClassTable, List.Forall₂ (fun before after =>
      before.1 = after.1 ∧ final.Becomes before.2 after.2) before after →
      List.Forall₂ (fun before resolved => final.Becomes before.2 resolved.entry)
        before after.entries from hlist table final h
  intro before after hall
  induction hall with
  | nil => exact .nil
  | @cons entry entry' rest rest' hentry _ ih =>
    obtain ⟨key, classified⟩ := entry
    obtain ⟨key', classified'⟩ := entry'
    obtain ⟨-, hbecomes⟩ := hentry
    cases classified' with
    | stub stub => cases hbecomes
    | pojo pojo => exact .cons hbecomes ih
    | plain plain => exact .cons hbecomes ih

theorem SettlesTo.exists_becomes {final : ClassTable} (h : table.SettlesTo final)
    {resolved : Resolved} (hresolved : resolved ∈ final.entries) :
    ∃ entry ∈ table, final.Becomes entry.2 resolved.entry := by
  obtain ⟨i, hi, rfl⟩ := List.mem_iff_getElem.mp hresolved
  have hlength : table.length = final.entries.length := h.entries.length_eq
  have hentry : i < table.length := by omega
  exact ⟨table[i], List.getElem_mem hentry, h.entries.get hentry hi⟩

theorem SettlesTo.exists_resolved {final : ClassTable} (h : table.SettlesTo final)
    {entry : String × Classified} (hentry : entry ∈ table) :
    ∃ resolved ∈ final.entries, final.Becomes entry.2 resolved.entry := by
  obtain ⟨i, hi, rfl⟩ := List.mem_iff_getElem.mp hentry
  have hlength : table.length = final.entries.length := h.entries.length_eq
  have hresolved : i < final.entries.length := by omega
  exact ⟨final.entries[i], List.getElem_mem hresolved, h.entries.get hi hresolved⟩

/-- **Once no stubs are left, each has become what it makes with its branches in that table.** -/
theorem settlesTo_rounds {n : Nat} (h : (table.rounds n).stubs = []) :
    table.SettlesTo (table.rounds n) := by
  have hbecomes : ∀ entry ∈ table,
      (table.rounds n).Becomes entry.2 (table.entryAfter n entry.2) := by
    rintro ⟨key, classified⟩ hentry
    cases classified with
    | pojo pojo => exact .pojo pojo
    | plain plain => exact .plain plain
    | stub stub =>
      cases hresolved : table.resolvedBy stub n with
      | none =>
        have hleft : stub ∈ (table.rounds n).stubs :=
          mem_stubs_rounds_iff.mpr ⟨mem_stubs_iff.mpr ⟨key, hentry⟩, hresolved⟩
        rw [h] at hleft
        cases hleft
      | some pojo =>
        obtain ⟨hready, hresolve⟩ := resolve_of_resolvedBy hresolved
        simp only [entryAfter, hresolved]
        exact .stub hready hresolve
  have hall : List.Forall₂ (fun before after => before.1 = after.1
      ∧ (table.rounds n).Becomes before.2 after.2) table
      (table.map fun entry => (entry.1, table.entryAfter n entry.2)) := by
    rw [List.forall₂_map_right_iff, List.forall₂_same]
    intro entry hentry
    exact ⟨rfl, hbecomes entry hentry⟩
  rwa [← rounds_eq_map] at hall

/-! ## Stuck stubs -/

/-- A branch name that keeps a stub from being resolvable: it ends at no entry, or in a stub that
is not resolvable. -/
def IsBlocked (table : ClassTable) (name : PojoName) : Prop :=
  table.EndsIn name.key none
    ∨ ∃ inner, table.EndsIn name.key (some (.stub inner)) ∧ ¬ table.Resolvable inner

section

variable {n : Nat} (hfaults : (table.rounds n).faults = [])
  (hstop : (table.rounds n).canAdvance = false)

include hfaults hstop

theorem isWaiting_lead_iff_isBlocked (name : PojoName) :
    ((table.rounds n).lead name).isWaiting = true ↔ table.IsBlocked name := by
  rw [isWaiting_lead_rounds_iff, IsBlocked]
  refine or_congr_right (exists_congr fun inner => and_congr_right fun hends => ?_)
  rw [resolvable_iff_resolvedBy hfaults hstop (mem_stubs_iff.mpr (mem_of_endsIn hends)),
    not_not]

theorem outcome_eq_stuck (hstub : stub ∈ (table.rounds n).stubs) :
    (table.rounds n).outcome stub = .stuck ((table.rounds n).missing stub) := by
  have hclean := faults_outcome_eq_nil_iff.mp (faults_eq_nil_iff.mp hfaults stub hstub)
  have hpojo := canAdvance_eq_false_iff.mp hstop stub hstub
  refine outcome_of_not_isReady ?_ hclean.1
  intro hready
  rw [pojo?_outcome_eq_some_iff.mpr ⟨hready, resolve_eq_ok_iff.mpr ⟨hclean.2 hready, rfl⟩⟩]
    at hpojo
  cases hpojo

open Classical in
/-- **The stuck stubs of the last round** are those that are not resolvable, in the order of the
table, each with its blocked branch names. -/
theorem stuck_rounds_eq : (table.rounds n).stuck
    = (table.stubs.filter fun stub => ¬ table.Resolvable stub).map fun stub =>
        ⟨stub.name, stub.branchNames.filter fun name => table.IsBlocked name⟩ := by
  have hstuck : (table.rounds n).stuck = (table.rounds n).stubs.map fun stub =>
      ⟨stub.name, (table.rounds n).missing stub⟩ := by
    rw [← List.filterMap_eq_map, stuck]
    refine List.filterMap_congr fun stub hstub => ?_
    rw [outcome_eq_stuck hfaults hstop hstub]
    rfl
  have hstubs : (table.rounds n).stubs
      = table.stubs.filter fun stub => ¬ table.Resolvable stub := by
    rw [stubs_rounds]
    refine List.filter_congr fun stub hstub => ?_
    rw [decide_not, resolvable_iff_resolvedBy hfaults hstop hstub]
    cases table.resolvedBy stub n <;> simp
  have hmissing : ∀ stub : Stub, (table.rounds n).missing stub
      = stub.branchNames.filter fun name => table.IsBlocked name := by
    intro stub
    refine List.filter_congr fun name _ => ?_
    rw [Bool.eq_iff_iff, isWaiting_lead_iff_isBlocked hfaults hstop name, decide_eq_true_iff]
  rw [hstuck, hstubs]
  simp only [hmissing]

end

/-! ## The result -/

/-- The final table of a resolution that succeeds. -/
theorem exists_settlesTo {number : Nat} {entries : List Resolved}
    (h : (settle number table).2 = .ok entries) :
    ∃ final, table.SettlesTo final ∧ final.stubs = [] ∧ entries = final.entries := by
  obtain ⟨n, -, hverdict, -⟩ := table.exists_verdict number
  rw [h] at hverdict
  rcases verdict?_cases hverdict with ⟨hnone, hok⟩ | ⟨_, -, herror⟩ | ⟨-, -, -, herror⟩
  · cases hok
    exact ⟨_, settlesTo_rounds hnone, hnone, rfl⟩
  · cases herror
  · cases herror

/-- **Resolution succeeds if and only if all stubs are resolvable and none has a fault** in a
round in which it is ready. -/
theorem settle_eq_ok_iff (table : ClassTable) (number : Nat) :
    (∃ entries, (settle number table).2 = .ok entries)
      ↔ (∀ stub ∈ table.stubs, table.Resolvable stub)
        ∧ ∀ m, ∀ stub ∈ (table.rounds m).stubs, (table.rounds m).IsReady stub →
          stub.faults ((table.rounds m).branchesOf stub) = [] := by
  obtain ⟨n, -, hverdict, -⟩ := table.exists_verdict number
  constructor
  · rintro ⟨entries, hentries⟩
    rw [hentries] at hverdict
    have hnone : (table.rounds n).stubs = [] := by
      rcases verdict?_cases hverdict with ⟨hnone, -⟩ | ⟨_, -, herror⟩ | ⟨-, -, -, herror⟩
      · exact hnone
      · cases herror
      · cases herror
    have hresolved : ∀ stub ∈ table.stubs, ∃ pojo, table.resolvedBy stub n = some pojo := by
      intro stub hstub
      by_contra hunresolved
      have hleft : stub ∈ (table.rounds n).stubs := by
        refine mem_stubs_rounds_iff.mpr ⟨hstub, ?_⟩
        rwa [← Option.not_isSome_iff_eq_none, Option.isSome_iff_exists]
      rw [hnone] at hleft
      cases hleft
    constructor
    · intro stub hstub
      obtain ⟨pojo, hpojo⟩ := hresolved stub hstub
      exact resolvable_of_resolvedBy hpojo
    · intro m stub hstub hready
      obtain ⟨pojo, hpojo⟩ := hresolved stub (mem_stubs_rounds_iff.mp hstub).1
      obtain ⟨hready', hresolve⟩ := resolve_of_resolvedBy hpojo
      -- both rounds have the branches of the later one
      have hm := (hready.of_le (Nat.le_max_left m n)).2
      have hn := (hready'.of_le (Nat.le_max_right m n)).2
      rw [← hm, hn]
      exact (resolve_eq_ok_iff.mp hresolve).1
  · rintro ⟨hresolvable, hclean⟩
    rcases verdict?_cases hverdict with ⟨-, hok⟩ | ⟨failure, hfailure, -⟩ | ⟨hne, hfaults, hstop, -⟩
    · exact ⟨_, hok⟩
    · have hfaults : (table.rounds n).faults = [] := by
        refine faults_eq_nil_iff.mpr fun stub hstub => faults_outcome_eq_nil_iff.mpr ?_
        have hmem : stub ∈ table.stubs := (mem_stubs_rounds_iff.mp hstub).1
        exact ⟨(hresolvable stub hmem).invalidBranches_eq_nil n, hclean n stub hstub⟩
      rw [hfaults] at hfailure
      cases hfailure
    · obtain ⟨stub, hstub⟩ := List.exists_mem_of_ne_nil _ hne
      obtain ⟨hmem, hnone⟩ := mem_stubs_rounds_iff.mp hstub
      exact absurd hnone
        ((resolvable_iff_resolvedBy hfaults hstop hmem).mp (hresolvable stub hmem))

open Classical in
/-- **Resolution computes the least fixed point.** Its result is the verdict of the first table
that needs no further round, and each round before has resolved a stub. It succeeds if and only
if all stubs are resolvable and none that is ready in a round has a fault; then the final table
is what the table settles to. Stuck stubs are reported exactly: those that are not resolvable,
each with its blocked branch names. -/
theorem settle_isLeastFixedPoint (table : ClassTable) (number : Nat) :
    (∃ n ≤ table.stubs.length, (table.rounds n).verdict? = some (settle number table).2
      ∧ ∀ m < n, (table.rounds m).verdict? = none
        ∧ (table.rounds (m + 1)).stubs.length < (table.rounds m).stubs.length)
    ∧ ((∃ entries, (settle number table).2 = .ok entries)
      ↔ (∀ stub ∈ table.stubs, table.Resolvable stub)
        ∧ ∀ m, ∀ stub ∈ (table.rounds m).stubs, (table.rounds m).IsReady stub →
          stub.faults ((table.rounds m).branchesOf stub) = [])
    ∧ (∀ entries, (settle number table).2 = .ok entries →
      ∃ final, table.SettlesTo final ∧ final.stubs = [] ∧ entries = final.entries)
    ∧ ∀ stuck others, (settle number table).2 = .error ⟨.unresolvable stuck, others⟩ →
      others = [] ∧ stuck
        = (table.stubs.filter fun stub => ¬ table.Resolvable stub).map fun stub =>
            ⟨stub.name, stub.branchNames.filter fun name => table.IsBlocked name⟩ := by
  refine ⟨table.exists_verdict number, table.settle_eq_ok_iff number, ?_, ?_⟩
  · intro entries hentries
    exact exists_settlesTo hentries
  · intro stuck others herror
    obtain ⟨n, -, hverdict, -⟩ := table.exists_verdict number
    rw [herror] at hverdict
    rcases verdict?_cases hverdict with
      ⟨-, hok⟩ | ⟨failure, hfailure, heq⟩ | ⟨-, hfaults, hstop, heq⟩
    · cases hok
    · cases heq
      have hmem : Fault.unresolvable stuck ∈ (table.rounds n).faults := by
        rw [← hfailure]
        exact List.mem_cons_self
      exact absurd rfl (ne_unresolvable_of_mem_faults hmem stuck)
    · cases heq
      exact ⟨rfl, stuck_rounds_eq hfaults hstop⟩

end ClassTable

end PojoGraph
