import PojoGraph.Proofs.Resolution.Rounds

/-!
# Resolution is a least fixed point

A stub is resolvable if each of its branch names ends in a pojo that can be a branch, or in a
resolvable stub; the resolvable stubs are the least set with this property. Rounds resolve
resolvable stubs only, and no round without faults is the last one before all of them are
resolved.

## Main definitions

* `ClassTable.Resolvable` — the least set of stubs.

## Main statements

* `ClassTable.resolvable_iff` — the resolvable stubs are a fixed point.
* `ClassTable.resolvable_of_resolvedBy` — what rounds resolve is resolvable.
* `ClassTable.resolvable_iff_resolvedBy` — at the last round just the resolvable stubs have been
  resolved.
-/

namespace PojoGraph

/-- The pojo of a stub can be a branch itself. -/
theorem Stub.exists_asBranch_of_resolve {stub : Stub} {branches : Branches} {pojo : Pojo}
    (h : stub.resolve branches = .ok pojo) : ∃ object, pojo.asBranch = .ok object := by
  obtain ⟨-, rfl⟩ := ClassTable.resolve_eq_ok_iff.mp h
  rw [Stub.toPojo]
  split <;> exact ⟨_, rfl⟩

namespace ClassTable

variable (table : ClassTable)

/-! ## Resolvable stubs -/

/-- The chain from a key ends in a pojo that can be a branch: an object, a union or a free-form
object. -/
def EndsInBranch (key : String) : Prop :=
  ∃ pojo object, table.EndsIn key (some (.pojo pojo)) ∧ pojo.asBranch = .ok object

/-- The least set of stubs each of whose branch names ends in a pojo that can be a branch, or in
a stub of the set. -/
inductive Resolvable : Stub → Prop where
  | intro {stub : Stub}
      (hends : ∀ name ∈ stub.branchNames, table.EndsInBranch name.key
        ∨ ∃ inner, table.EndsIn name.key (some (.stub inner)))
      (hstubs : ∀ name ∈ stub.branchNames, ∀ inner,
        table.EndsIn name.key (some (.stub inner)) → Resolvable inner) :
    Resolvable stub

variable {table} {stub : Stub}

theorem Resolvable.branches (h : table.Resolvable stub) :
    ∀ name ∈ stub.branchNames, table.EndsInBranch name.key
      ∨ ∃ inner, table.EndsIn name.key (some (.stub inner)) ∧ table.Resolvable inner := by
  obtain ⟨hends, hstubs⟩ := h
  intro name hname
  rcases hends name hname with hbranch | ⟨inner, hinner⟩
  · exact .inl hbranch
  · exact .inr ⟨inner, hinner, hstubs name hname inner hinner⟩

/-- **The resolvable stubs are a fixed point** of the rule that makes stubs resolvable. -/
theorem resolvable_iff : table.Resolvable stub
    ↔ ∀ name ∈ stub.branchNames, table.EndsInBranch name.key
      ∨ ∃ inner, table.EndsIn name.key (some (.stub inner)) ∧ table.Resolvable inner := by
  refine ⟨Resolvable.branches, fun h => .intro ?_ ?_⟩
  · intro name hname
    rcases h name hname with hbranch | ⟨inner, hinner, -⟩
    · exact .inl hbranch
    · exact .inr ⟨inner, hinner⟩
  · intro name hname inner hinner
    rcases h name hname with ⟨pojo, _, hpojo, -⟩ | ⟨inner', hinner', hresolvable⟩
    · cases hpojo.unique hinner
    · cases hinner'.unique hinner
      exact hresolvable

/-- They are the least one: any set of stubs that the rule does not leave contains them. -/
theorem Resolvable.mem_of_closed {S : Stub → Prop}
    (hclosed : ∀ stub, (∀ name ∈ stub.branchNames, table.EndsInBranch name.key
      ∨ ∃ inner, table.EndsIn name.key (some (.stub inner)) ∧ S inner) → S stub)
    (h : table.Resolvable stub) : S stub := by
  induction h with
  | intro hends hstubs ih =>
    refine hclosed _ fun name hname => ?_
    rcases hends name hname with hbranch | ⟨inner, hinner⟩
    · exact .inl hbranch
    · exact .inr ⟨inner, hinner, ih name hname inner hinner⟩

/-! ## Chains in later rounds -/

theorem next?_rounds (table : ClassTable) (n : Nat) (key : String) :
    (table.rounds n).next? key = table.next? key := by
  unfold next?
  rw [lookup?_rounds]
  cases table.lookup? key with
  | none => rfl
  | some classified =>
    cases classified with
    | pojo pojo => rfl
    | plain plain => rfl
    | stub stub =>
      simp only [Option.map_some, entryAfter]
      cases table.resolvedBy stub n <;> rfl

/-- Chains stay as they are; what they end in may have been resolved. -/
theorem EndsIn.rounds {key : String} {stop : Option Classified} (h : table.EndsIn key stop)
    (n : Nat) : (table.rounds n).EndsIn key (stop.map (table.entryAfter n)) := by
  obtain ⟨path, hpath⟩ := h
  refine ⟨path, ?_⟩
  induction hpath with
  | here hend =>
    rw [← lookup?_rounds]
    exact .here (by rw [next?_rounds, hend])
  | there hnext hrest ih => exact .there (by rw [next?_rounds, hnext]) ih

theorem lead_rounds_of_endsIn {name : PojoName} {stop : Option Classified}
    (h : table.EndsIn name.key stop) (n : Nat) :
    (table.rounds n).lead name = Lead.ofEnd (stop.map (table.entryAfter n)) :=
  lead_of_endsIn (h.rounds n)

theorem lead_rounds_cases (table : ClassTable) (n : Nat) (name : PojoName) :
    (∃ stop, table.EndsIn name.key stop
        ∧ (table.rounds n).lead name = Lead.ofEnd (stop.map (table.entryAfter n)))
      ∨ (table.rounds n).lead name = .invalid .cyclicReference := by
  rcases table.lead_cases name with ⟨stop, hends, -⟩ | hcyclic
  · exact .inl ⟨stop, hends, lead_rounds_of_endsIn hends n⟩
  · right
    rcases table.lead_rounds_of_le (Nat.zero_le n) name with heq | hwaiting
    · rw [heq]
      exact hcyclic
    · rw [rounds, hcyclic] at hwaiting
      cases hwaiting

theorem mem_of_endsIn {key : String} {classified : Classified}
    (h : table.EndsIn key (some classified)) : ∃ k, (k, classified) ∈ table := by
  obtain ⟨path, hpath⟩ := h
  generalize hstop : some classified = stop at hpath
  induction hpath with
  | @here key hend =>
    obtain ⟨before, after, heq, -⟩ := List.lookup_eq_some_iff.mp hstop.symm
    exact ⟨key, by rw [heq]; simp⟩
  | there hnext hrest ih => exact ih hstop

/-! ## What a name leads to in a later round -/

theorem lead_rounds_of_endsInBranch {name : PojoName} (h : table.EndsInBranch name.key)
    (n : Nat) : ∃ object, (table.rounds n).lead name = .object object := by
  obtain ⟨pojo, object, hends, hbranch⟩ := h
  refine ⟨object, ?_⟩
  rw [lead_rounds_of_endsIn hends n]
  simp [entryAfter, Lead.ofEnd, hbranch]

/-- A name that ends in a stub waits until that is resolved, and then leads to an object. -/
theorem lead_rounds_of_endsIn_stub {name : PojoName} {inner : Stub}
    (h : table.EndsIn name.key (some (.stub inner))) (n : Nat) :
    (table.resolvedBy inner n = none ∧ (table.rounds n).lead name = .waiting)
      ∨ ((table.resolvedBy inner n).isSome
        ∧ ∃ object, (table.rounds n).lead name = .object object) := by
  rw [lead_rounds_of_endsIn h n, Option.map_some]
  cases hresolved : table.resolvedBy inner n with
  | none => exact .inl ⟨rfl, by simp [entryAfter, hresolved, Lead.ofEnd]⟩
  | some pojo =>
    obtain ⟨object, hobject⟩ := Stub.exists_asBranch_of_resolve (resolve_of_resolvedBy hresolved).2
    exact .inr ⟨rfl, object, by simp [entryAfter, hresolved, Lead.ofEnd, hobject]⟩

/-- Names that lead to an object in a round end in a branch, or in a stub that has been
resolved. -/
theorem exists_of_lead_rounds_eq_object {n : Nat} {name : PojoName} {object : ObjectPojo}
    (h : (table.rounds n).lead name = .object object) :
    table.EndsInBranch name.key
      ∨ ∃ inner, table.EndsIn name.key (some (.stub inner))
        ∧ (table.resolvedBy inner n).isSome := by
  rcases table.lead_rounds_cases n name with ⟨stop, hends, hlead⟩ | hcyclic
  · rw [h] at hlead
    cases stop with
    | none => cases hlead
    | some classified =>
      cases classified with
      | plain plain => cases hlead
      | pojo pojo =>
        left
        cases hbranch : pojo.asBranch with
        | ok o => exact ⟨pojo, o, hends, hbranch⟩
        | error obstacle => simp [entryAfter, Lead.ofEnd, hbranch] at hlead
      | stub inner =>
        right
        rcases lead_rounds_of_endsIn_stub hends n with ⟨-, hwaiting⟩ | ⟨hresolved, -⟩
        · rw [h] at hwaiting
          cases hwaiting
        · exact ⟨inner, hends, hresolved⟩
  · rw [h] at hcyclic
    cases hcyclic

/-- The names that wait in a round lead nowhere, or end in a stub that has not been resolved. -/
theorem isWaiting_lead_rounds_iff (n : Nat) (name : PojoName) :
    ((table.rounds n).lead name).isWaiting = true
      ↔ table.EndsIn name.key none
        ∨ ∃ inner, table.EndsIn name.key (some (.stub inner))
          ∧ table.resolvedBy inner n = none := by
  constructor
  · intro hwaiting
    rcases table.lead_rounds_cases n name with ⟨stop, hends, hlead⟩ | hcyclic
    · rw [hlead] at hwaiting
      cases stop with
      | none => exact .inl hends
      | some classified =>
        cases classified with
        | plain plain => cases hwaiting
        | pojo pojo => cases hbranch : pojo.asBranch <;>
            simp [entryAfter, Lead.ofEnd, hbranch, Lead.isWaiting] at hwaiting
        | stub inner =>
          right
          refine ⟨inner, hends, ?_⟩
          rcases lead_rounds_of_endsIn_stub hends n with ⟨hnone, -⟩ | ⟨-, object, hobject⟩
          · exact hnone
          · rw [← hlead, hobject] at hwaiting
            cases hwaiting
    · rw [hcyclic] at hwaiting
      cases hwaiting
  · rintro (hends | ⟨inner, hends, hnone⟩)
    · rw [lead_rounds_of_endsIn hends n]
      rfl
    · rcases lead_rounds_of_endsIn_stub hends n with ⟨-, hwaiting⟩ | ⟨hresolved, -⟩
      · rw [hwaiting]
        rfl
      · rw [hnone] at hresolved
        cases hresolved

/-! ## Soundness and completeness of rounds -/

/-- **What rounds resolve is resolvable**: in the round that resolves a stub, its branch names
that end in stubs end in such as earlier rounds have resolved. -/
theorem resolvable_of_resolvedBy {n : Nat} {pojo : Pojo}
    (h : table.resolvedBy stub n = some pojo) : table.Resolvable stub := by
  induction n using Nat.strongRecOn generalizing stub pojo with
  | ind n ih =>
    obtain ⟨m, hm, hready, -⟩ := exists_round_of_resolvedBy h
    refine resolvable_iff.mpr fun name hname => ?_
    obtain ⟨object, hobject⟩ := hready name hname
    rcases exists_of_lead_rounds_eq_object hobject with hbranch | ⟨inner, hinner, hresolved⟩
    · exact .inl hbranch
    · obtain ⟨resolved, hresolved⟩ := Option.isSome_iff_exists.mp hresolved
      exact .inr ⟨inner, hinner, ih m hm hresolved⟩

/-- No branch of a resolvable stub is ever in its way. -/
theorem Resolvable.invalidBranches_eq_nil (h : table.Resolvable stub) (n : Nat) :
    (table.rounds n).invalidBranches stub = [] := by
  refine invalidBranches_eq_nil_iff.mpr fun name hname => ?_
  rcases h.branches name hname with hbranch | ⟨inner, hinner, -⟩
  · obtain ⟨object, hobject⟩ := lead_rounds_of_endsInBranch hbranch n
    rw [hobject]
    rfl
  · rcases lead_rounds_of_endsIn_stub hinner n with ⟨-, hwaiting⟩ | ⟨-, object, hobject⟩
    · rw [hwaiting]
      rfl
    · rw [hobject]
      rfl

theorem faults_eq_nil_iff :
    table.faults = [] ↔ ∀ stub ∈ table.stubs, (table.outcome stub).faults = [] := by
  simp [faults, List.flatMap_eq_nil_iff]

theorem canAdvance_eq_false_iff :
    table.canAdvance = false ↔ ∀ stub ∈ table.stubs, (table.outcome stub).pojo? = none := by
  simp [canAdvance, isResolvable]

theorem mem_stubs_rounds_iff {n : Nat} : stub ∈ (table.rounds n).stubs
    ↔ stub ∈ table.stubs ∧ table.resolvedBy stub n = none := by
  rw [stubs_rounds]
  simp

/-- **Where a round neither finds a fault nor resolves a stub, all that is resolvable has been
resolved**: a resolvable stub that is left would be ready. -/
theorem exists_resolvedBy_of_resolvable {n : Nat} (hfaults : (table.rounds n).faults = [])
    (hstop : (table.rounds n).canAdvance = false) (h : table.Resolvable stub)
    (hstub : stub ∈ table.stubs) : ∃ pojo, table.resolvedBy stub n = some pojo := by
  induction h with
  | @intro stub hends hstubs ih =>
    by_contra hnone
    have hleft : stub ∈ (table.rounds n).stubs := by
      refine mem_stubs_rounds_iff.mpr ⟨hstub, ?_⟩
      rw [← Option.not_isSome_iff_eq_none, Option.isSome_iff_exists]
      exact hnone
    have hready : (table.rounds n).IsReady stub := by
      intro name hname
      rcases hends name hname with hbranch | ⟨inner, hinner⟩
      · exact lead_rounds_of_endsInBranch hbranch n
      · obtain ⟨pojo, hpojo⟩ :=
          ih name hname inner hinner (mem_stubs_iff.mpr (mem_of_endsIn hinner))
        rcases lead_rounds_of_endsIn_stub hinner n with ⟨hunresolved, -⟩ | ⟨-, hobject⟩
        · rw [hpojo] at hunresolved
          cases hunresolved
        · exact hobject
    have hclean := (faults_outcome_eq_nil_iff.mp (faults_eq_nil_iff.mp hfaults stub hleft)).2 hready
    have hpojo := canAdvance_eq_false_iff.mp hstop stub hleft
    rw [pojo?_outcome_eq_some_iff.mpr ⟨hready, resolve_eq_ok_iff.mpr ⟨hclean, rfl⟩⟩] at hpojo
    cases hpojo

theorem resolvable_iff_resolvedBy {n : Nat} (hfaults : (table.rounds n).faults = [])
    (hstop : (table.rounds n).canAdvance = false) (hstub : stub ∈ table.stubs) :
    table.Resolvable stub ↔ table.resolvedBy stub n ≠ none := by
  rw [Option.ne_none_iff_exists']
  constructor
  · intro h
    exact exists_resolvedBy_of_resolvable hfaults hstop h hstub
  · rintro ⟨pojo, hpojo⟩
    exact resolvable_of_resolvedBy hpojo

end ClassTable

end PojoGraph
