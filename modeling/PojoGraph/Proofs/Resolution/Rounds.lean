import Mathlib.Data.List.Basic
import PojoGraph.Proofs.Resolution.Chains

/-!
# Rounds of resolution

The table after a number of rounds has the entries of the first one, in their places; only some
stubs have become pojos. A stub that is ready in one round, since all its branch names lead to
objects, has the same branches in all later rounds.

## Main definitions

* `ClassTable.rounds` — the table after a number of rounds.
* `ClassTable.resolvedBy` — the pojo that the rounds so far have made of a stub.
* `ClassTable.IsReady` — all branch names of a stub lead to objects.
* `ClassTable.verdict?` — the result that a table gives without another round.

## Main statements

* `ClassTable.rounds_eq_map` — what the rounds make of each entry.
* `ClassTable.IsReady.branchesOf_eq` — the branches of a ready stub no longer change.
* `ClassTable.exists_verdict` — the result is the first verdict, after at most as many rounds as
  there are stubs.
-/

namespace PojoGraph

namespace ClassTable

variable (table : ClassTable)

/-! ## Outcomes -/

/-- All branch names of a stub lead to objects. -/
def IsReady (stub : Stub) : Prop :=
  ∀ name ∈ stub.branchNames, ∃ object, table.lead name = .object object

variable {table} {stub : Stub}

theorem mem_branchNames_iff {name : PojoName} :
    name ∈ stub.branchNames ↔ ∃ kind, (kind, name) ∈ stub.branches := by
  simp [Stub.branchNames]

theorem mem_branchNames_of_branchesOf {kind : CompositionKind} {names : List PojoName}
    (hnames : stub.branchesOf kind = some names) {name : PojoName} (hname : name ∈ names) :
    name ∈ stub.branchNames := by
  refine mem_branchNames_iff.mpr ⟨kind, ?_⟩
  cases kind <;> simp [Stub.branches, hnames, hname]

theorem invalidBranches_eq_nil_iff : table.invalidBranches stub = []
    ↔ ∀ name ∈ stub.branchNames, (table.lead name).obstacle? = none := by
  rw [invalidBranches, List.filterMap_eq_nil_iff]
  constructor
  · intro h name hname
    obtain ⟨kind, hkind⟩ := mem_branchNames_iff.mp hname
    simpa using h (kind, name) hkind
  · rintro h ⟨kind, name⟩ hkind
    simpa using h name (mem_branchNames_iff.mpr ⟨kind, hkind⟩)

theorem missing_eq_nil_iff : table.missing stub = []
    ↔ ∀ name ∈ stub.branchNames, (table.lead name).isWaiting = false := by
  simp [missing, List.filter_eq_nil_iff]

/-- A stub is ready if none of its branches is in the way and none is missing. -/
theorem isReady_iff : table.IsReady stub
    ↔ table.invalidBranches stub = [] ∧ table.missing stub = [] := by
  rw [invalidBranches_eq_nil_iff, missing_eq_nil_iff]
  constructor
  · intro h
    refine ⟨fun name hname => ?_, fun name hname => ?_⟩ <;>
      obtain ⟨object, hobject⟩ := h name hname <;> rw [hobject] <;> rfl
  · rintro ⟨hvalid, hmissing⟩ name hname
    have hobstacle := hvalid name hname
    have hwaiting := hmissing name hname
    cases hlead : table.lead name with
    | object object => exact ⟨object, rfl⟩
    | waiting => rw [hlead] at hwaiting; cases hwaiting
    | invalid obstacle => rw [hlead] at hobstacle; cases hobstacle

theorem outcome_of_isReady (h : table.IsReady stub) : table.outcome stub =
    match stub.resolve (table.branchesOf stub) with
    | .ok pojo => .resolved pojo
    | .error faults => .faulty faults := by
  obtain ⟨hvalid, hmissing⟩ := isReady_iff.mp h
  rw [outcome]
  cases stub.resolve (table.branchesOf stub) <;> simp only [hvalid, hmissing]

/-- A stub with no branch in its way that is not ready waits for those that are missing. -/
theorem outcome_of_not_isReady (h : ¬ table.IsReady stub)
    (hvalid : table.invalidBranches stub = []) :
    table.outcome stub = .stuck (table.missing stub) := by
  rw [outcome, hvalid]
  cases hmissing : table.missing stub with
  | nil => exact absurd (isReady_iff.mpr ⟨hvalid, hmissing⟩) h
  | cons name rest => rfl

theorem outcome_of_invalidBranches (h : table.invalidBranches stub ≠ []) :
    table.outcome stub = .faulty (table.invalidBranches stub) := by
  rw [outcome]
  cases hinvalid : table.invalidBranches stub with
  | nil => exact absurd hinvalid h
  | cons fault rest => rfl

/-- **A round resolves exactly the ready stubs that resolve without faults.** -/
theorem pojo?_outcome_eq_some_iff {pojo : Pojo} : (table.outcome stub).pojo? = some pojo
    ↔ table.IsReady stub ∧ stub.resolve (table.branchesOf stub) = .ok pojo := by
  by_cases hready : table.IsReady stub
  · rw [outcome_of_isReady hready]
    cases hresolve : stub.resolve (table.branchesOf stub) with
    | ok resolved => simp [Outcome.pojo?, hready]
    | error faults => simp [Outcome.pojo?]
  · by_cases hvalid : table.invalidBranches stub = []
    · simp [outcome_of_not_isReady hready hvalid, Outcome.pojo?, hready]
    · simp [outcome_of_invalidBranches hvalid, Outcome.pojo?, hready]

theorem resolve_eq_ok_iff {stub : Stub} {branches : Branches} {pojo : Pojo} :
    stub.resolve branches = .ok pojo
      ↔ stub.faults branches = [] ∧ pojo = stub.toPojo branches := by
  rw [Stub.resolve]
  cases stub.faults branches with
  | nil => simp [eq_comm]
  | cons fault rest => simp

/-- What a round finds wrong with a ready stub is what is wrong with the stub and its
branches. -/
theorem faults_outcome_of_isReady (h : table.IsReady stub) :
    (table.outcome stub).faults = stub.faults (table.branchesOf stub) := by
  rw [outcome_of_isReady h, Stub.resolve]
  cases stub.faults (table.branchesOf stub) <;> rfl

/-- A round finds nothing wrong with a stub if no branch is in its way and, where it is ready,
it resolves. -/
theorem faults_outcome_eq_nil_iff : (table.outcome stub).faults = []
    ↔ table.invalidBranches stub = []
      ∧ (table.IsReady stub → stub.faults (table.branchesOf stub) = []) := by
  by_cases hready : table.IsReady stub
  · simp [faults_outcome_of_isReady hready, hready, (isReady_iff.mp hready).1]
  · by_cases hvalid : table.invalidBranches stub = []
    · simp [outcome_of_not_isReady hready hvalid, Outcome.faults, hvalid, hready]
    · simp [outcome_of_invalidBranches hvalid, Outcome.faults, hvalid]

/-! ## The table after some rounds -/

/-- The table after a number of rounds. -/
def rounds (table : ClassTable) : Nat → ClassTable
  | 0 => table
  | n + 1 => (table.rounds n).advance

/-- The pojo that one of the first `n` rounds has made of a stub. -/
def resolvedBy (table : ClassTable) (stub : Stub) : Nat → Option Pojo
  | 0 => none
  | n + 1 => (table.resolvedBy stub n).or ((table.rounds n).outcome stub).pojo?

/-- What an entry is after `n` rounds. -/
def entryAfter (table : ClassTable) (n : Nat) : Classified → Classified
  | .stub stub =>
    match table.resolvedBy stub n with
    | some pojo => .pojo pojo
    | none => .stub stub
  | .pojo pojo => .pojo pojo
  | .plain plain => .plain plain

theorem advanceEntry_entryAfter (table : ClassTable) (n : Nat) (classified : Classified) :
    (table.rounds n).advanceEntry (table.entryAfter n classified)
      = table.entryAfter (n + 1) classified := by
  cases classified with
  | pojo pojo => rfl
  | plain plain => rfl
  | stub stub =>
    simp only [entryAfter, resolvedBy]
    cases table.resolvedBy stub n with
    | some pojo => rfl
    | none =>
      simp only [advanceEntry, Option.none_or]
      cases ((table.rounds n).outcome stub).pojo? <;> rfl

/-- **Rounds keep the entries in their places and change nothing but stubs.** -/
theorem rounds_eq_map (table : ClassTable) (n : Nat) :
    table.rounds n = table.map fun entry => (entry.1, table.entryAfter n entry.2) := by
  induction n with
  | zero =>
    have hid : ∀ classified, table.entryAfter 0 classified = classified := by
      intro classified
      cases classified <;> rfl
    simp [rounds, hid]
  | succ n ih =>
    have hentry : ∀ entry : String × Classified,
        (entry.1, (table.rounds n).advanceEntry (table.entryAfter n entry.2))
          = (entry.1, table.entryAfter (n + 1) entry.2) := by
      intro entry
      rw [advanceEntry_entryAfter]
    calc table.rounds (n + 1)
        = (table.rounds n).map fun entry =>
            (entry.1, (table.rounds n).advanceEntry entry.2) := rfl
      _ = (table.map fun entry => (entry.1, table.entryAfter n entry.2)).map fun entry =>
            (entry.1, (table.rounds n).advanceEntry entry.2) := by rw [← ih]
      _ = _ := by
        rw [List.map_map]
        exact List.map_congr_left fun entry _ => hentry entry

theorem lookup?_rounds (table : ClassTable) (n : Nat) (key : String) :
    (table.rounds n).lookup? key = (table.lookup? key).map (table.entryAfter n) := by
  rw [rounds_eq_map]
  exact lookup?_map _ table key

/-- The stubs of a later round are those of the table that have not been resolved. -/
theorem stubs_rounds (table : ClassTable) (n : Nat) :
    (table.rounds n).stubs = table.stubs.filter fun stub => (table.resolvedBy stub n).isNone := by
  have hentry : ∀ classified : Classified, stub? (table.entryAfter n classified)
      = (stub? classified).filter fun stub => (table.resolvedBy stub n).isNone := by
    intro classified
    cases classified with
    | pojo pojo => rfl
    | plain plain => rfl
    | stub stub =>
      simp only [entryAfter]
      cases hresolved : table.resolvedBy stub n <;> simp [stub?, hresolved, Option.filter]
  unfold stubs
  rw [rounds_eq_map, List.filterMap_map, List.filter_filterMap]
  exact List.filterMap_congr fun entry _ => hentry entry.2

theorem mem_stubs_iff {stub : Stub} : stub ∈ table.stubs ↔ ∃ key, (key, .stub stub) ∈ table := by
  simp only [stubs, List.mem_filterMap]
  constructor
  · rintro ⟨⟨key, classified⟩, hentry, hstub⟩
    cases classified with
    | stub s => cases hstub; exact ⟨key, hentry⟩
    | pojo _ => cases hstub
    | plain _ => cases hstub
  · rintro ⟨key, hentry⟩
    exact ⟨_, hentry, rfl⟩

/-! ## Leads do not change once they are found -/

theorem lead_rounds_of_le (table : ClassTable) {m n : Nat} (h : m ≤ n) (name : PojoName) :
    (table.rounds n).lead name = (table.rounds m).lead name
      ∨ (table.rounds m).lead name = .waiting := by
  induction h with
  | refl => exact .inl rfl
  | @step n _ ih =>
    rcases ih with ih | ih
    · rw [← ih]
      exact (table.rounds n).lead_advance name
    · exact .inr ih

theorem lead_rounds_eq_of_object {m n : Nat} (h : m ≤ n) {name : PojoName} {object : ObjectPojo}
    (hobject : (table.rounds m).lead name = .object object) :
    (table.rounds n).lead name = .object object := by
  rcases table.lead_rounds_of_le h name with heq | hwaiting
  · rw [heq, hobject]
  · rw [hobject] at hwaiting
    cases hwaiting

theorem objectsOf_congr {other : ClassTable} {kind : CompositionKind}
    (h : ∀ name ∈ stub.branchNames, table.lead name = other.lead name) :
    table.objectsOf stub kind = other.objectsOf stub kind := by
  unfold objectsOf
  cases hbranches : stub.branchesOf kind with
  | none => rfl
  | some names =>
    simp only [Option.map_some]
    congr 1
    refine List.filterMap_congr fun name hname => ?_
    rw [h name (mem_branchNames_of_branchesOf hbranches hname)]

/-- **A stub that is ready stays so**, and its branches no longer change. -/
theorem IsReady.of_le {m n : Nat} (hready : (table.rounds m).IsReady stub) (h : m ≤ n) :
    (table.rounds n).IsReady stub
      ∧ (table.rounds n).branchesOf stub = (table.rounds m).branchesOf stub := by
  have hlead : ∀ name ∈ stub.branchNames,
      (table.rounds n).lead name = (table.rounds m).lead name := by
    intro name hname
    obtain ⟨object, hobject⟩ := hready name hname
    rw [lead_rounds_eq_of_object h hobject, hobject]
  constructor
  · intro name hname
    rw [hlead name hname]
    exact hready name hname
  · simp only [branchesOf, objectsOf_congr hlead]

/-- What a round made of a stub is what any later table makes of it. -/
theorem exists_round_of_resolvedBy {n : Nat} {pojo : Pojo}
    (h : table.resolvedBy stub n = some pojo) :
    ∃ m < n, (table.rounds m).IsReady stub
      ∧ stub.resolve ((table.rounds m).branchesOf stub) = .ok pojo := by
  induction n with
  | zero => cases h
  | succ n ih =>
    rw [resolvedBy, Option.or_eq_some_iff] at h
    rcases h with h | ⟨-, h⟩
    · obtain ⟨m, hm, hround⟩ := ih h
      exact ⟨m, Nat.lt_succ_of_lt hm, hround⟩
    · exact ⟨n, Nat.lt_succ_self n, pojo?_outcome_eq_some_iff.mp h⟩

theorem resolve_of_resolvedBy {n : Nat} {pojo : Pojo}
    (h : table.resolvedBy stub n = some pojo) :
    (table.rounds n).IsReady stub
      ∧ stub.resolve ((table.rounds n).branchesOf stub) = .ok pojo := by
  obtain ⟨m, hm, hready, hresolve⟩ := exists_round_of_resolvedBy h
  obtain ⟨hlater, hbranches⟩ := hready.of_le (Nat.le_of_lt hm)
  exact ⟨hlater, by rw [hbranches, hresolve]⟩

/-! ## Verdicts -/

/-- The result of a table in which no further round takes place. -/
def verdict? (table : ClassTable) : Option (Except Failure (List Resolved)) :=
  if table.stubs.isEmpty then some (.ok table.entries)
  else
    match Failure.of? table.faults with
    | some failure => some (.error failure)
    | none =>
      if table.canAdvance then none else some (.error ⟨.unresolvable table.stuck, []⟩)

/-- The three ways in which resolution ends. -/
theorem verdict?_cases {result : Except Failure (List Resolved)}
    (h : table.verdict? = some result) :
    (table.stubs = [] ∧ result = .ok table.entries)
      ∨ (∃ failure, failure.faults = table.faults ∧ result = .error failure)
      ∨ (table.stubs ≠ [] ∧ table.faults = [] ∧ table.canAdvance = false
        ∧ result = .error ⟨.unresolvable table.stuck, []⟩) := by
  rw [verdict?] at h
  split at h
  · rename_i hempty
    cases h
    exact .inl ⟨List.isEmpty_iff.mp hempty, rfl⟩
  · rename_i hstubs
    right
    cases hfaults : table.faults with
    | cons first others =>
      simp only [hfaults, Failure.of?] at h
      cases h
      exact .inl ⟨_, rfl, rfl⟩
    | nil =>
      simp only [hfaults, Failure.of?] at h
      cases hstop : table.canAdvance with
      | true => simp [hstop] at h
      | false =>
        simp only [hstop, Bool.false_eq_true, if_false] at h
        cases h
        exact .inr ⟨by simpa using hstubs, rfl, rfl, rfl⟩

/-- A further round takes place where there are stubs, nothing is wrong with them, and some of
them are resolved. -/
theorem verdict?_eq_none_iff : table.verdict? = none
    ↔ table.stubs ≠ [] ∧ table.faults = [] ∧ table.canAdvance = true := by
  rw [verdict?, ← Failure.of?_eq_none_iff]
  cases hstubs : table.stubs with
  | nil => simp
  | cons stub rest =>
    cases Failure.of? table.faults with
    | some failure => simp
    | none => simp

theorem snd_settle (number : Nat) (table : ClassTable) :
    (settle number table).2
      = table.verdict?.getD (settle (number + 1) table.advance).2 := by
  rw [settle, verdict?]
  split
  · rfl
  · cases Failure.of? table.faults with
    | some failure => rfl
    | none =>
      by_cases h : table.canAdvance
      · simp [h]
      · simp [h]

theorem canAdvance_of_verdict?_eq_none (h : table.verdict? = none) : table.canAdvance = true :=
  (verdict?_eq_none_iff.mp h).2.2

theorem rounds_advance (table : ClassTable) (n : Nat) :
    table.advance.rounds n = table.rounds (n + 1) := by
  induction n with
  | zero => rfl
  | succ n ih => rw [rounds, ih]; rfl

/-- **Resolution ends**: its result is the first verdict, and there are at most as many rounds
before it as there are stubs, each of which takes stubs away. -/
theorem exists_verdict (table : ClassTable) (number : Nat) :
    ∃ n ≤ table.stubs.length, (table.rounds n).verdict? = some (settle number table).2
      ∧ ∀ m < n, (table.rounds m).verdict? = none
        ∧ (table.rounds (m + 1)).stubs.length < (table.rounds m).stubs.length := by
  induction hcount : table.stubs.length using Nat.strongRecOn generalizing table number with
  | ind count ih =>
    rw [snd_settle]
    cases hverdict : table.verdict? with
    | some result =>
      exact ⟨0, Nat.zero_le _, by rw [rounds, hverdict]; rfl, fun m hm => absurd hm m.not_lt_zero⟩
    | none =>
      have hlt := length_stubs_advance_lt table (canAdvance_of_verdict?_eq_none hverdict)
      obtain ⟨n, hn, hresult, hbefore⟩ := ih _ (hcount ▸ hlt) table.advance (number + 1) rfl
      refine ⟨n + 1, by omega, ?_, ?_⟩
      · rw [← rounds_advance, hresult]
        rfl
      · intro m hm
        cases m with
        | zero => exact ⟨hverdict, hlt⟩
        | succ m =>
          rw [← rounds_advance, ← rounds_advance]
          exact hbefore m (by omega)

end ClassTable

end PojoGraph
