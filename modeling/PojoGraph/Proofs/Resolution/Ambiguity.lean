import Mathlib.Data.List.Induction
import PojoGraph.Proofs.Resolution.Result

/-!
# Members that repeat a name

A stub takes the members of its `allOf` branches in front of its own, and becomes a pojo only if
all these candidates have different names. In the round in which its branches are there, each
candidate that repeats the name of an earlier one is reported, and the round is the last one.

## Main definitions

* `repeated` — the elements of a list that repeat an earlier one.
* `Fault.ambiguous?` — the member that a fault reports for a type.

## Main statements

* `repeats_eq_repeated` — the repeated elements are found in one sweep.
* `ClassTable.ambiguous_faults` — what a round reports for a stub that is ready.
* `ClassTable.settle_rounds`, `ClassTable.settle_of_faults` — a round that reports something is
  the last one.
-/

namespace PojoGraph

/-! ## Repeated elements -/

/-- The elements of a list that stand further ahead already, in order. -/
def repeated (texts : List String) : List String :=
  (texts.zipIdx.filter fun (s, i) => s ∈ texts.take i).map (·.1)

theorem repeats_concat (seen texts : List String) (last : String) :
    repeats seen (texts ++ [last])
      = repeats seen texts ++ if last ∈ seen ∨ last ∈ texts then [last] else [] := by
  induction texts generalizing seen with
  | nil => by_cases h : last ∈ seen <;> simp [repeats, h]
  | cons s rest ih =>
    by_cases hs : s ∈ seen
    · have hiff : (last ∈ seen ∨ last ∈ s :: rest) ↔ last ∈ seen ∨ last ∈ rest := by
        simp only [List.mem_cons]
        constructor
        · rintro (h | rfl | h)
          · exact .inl h
          · exact .inl hs
          · exact .inr h
        · rintro (h | h)
          · exact .inl h
          · exact .inr (.inr h)
      simp only [List.cons_append, repeats, hs, if_true, ih, hiff]
    · have hiff : (last ∈ s :: seen ∨ last ∈ rest) ↔ last ∈ seen ∨ last ∈ s :: rest := by
        simp only [List.mem_cons]
        tauto
      simp only [List.cons_append, repeats, hs, if_false, ih, hiff]

/-- **One sweep finds each element that repeats an earlier one.** -/
theorem repeats_eq_repeated (texts : List String) : repeats [] texts = repeated texts := by
  induction texts using List.reverseRecOn with
  | nil => rfl
  | append_singleton texts last ih =>
    have hbefore : texts.zipIdx.filter (fun (s, i) => s ∈ (texts ++ [last]).take i)
        = texts.zipIdx.filter fun (s, i) => s ∈ texts.take i := by
      refine List.filter_congr fun (s, i) hmem => ?_
      have hlt : i < texts.length := by simpa using (List.mem_zipIdx hmem).2.1
      simp only [List.take_append_of_le_length (Nat.le_of_lt hlt)]
    have hlast : ([last].zipIdx texts.length).filter
        (fun (s, i) => s ∈ (texts ++ [last]).take i)
        = if last ∈ texts then [(last, texts.length)] else [] := by
      by_cases h : last ∈ texts <;> simp [h]
    rw [repeats_concat, ih, repeated, repeated, List.zipIdx_append, List.filter_append,
      List.map_append, hbefore, Nat.zero_add, hlast]
    by_cases h : last ∈ texts <;> simp [h]

/-! ## Reports -/

/-- The member that the fault reports as ambiguous for the type of a name. -/
def Fault.ambiguous? (pojo : PojoName) : Fault → Option String
  | ambiguousMember owner member => if owner = pojo then some member else none
  | _ => none

/-- The names of the members that a stub would have with its branches. -/
def Stub.candidates (stub : Stub) (branches : Branches) : List String :=
  (stub.allMembers branches).map (·.name)

namespace Stub

variable {stub : Stub} {branches : Branches}

/-- What is wrong with a stub is a discriminator value, or a name that a candidate repeats. -/
theorem exists_faults_eq (stub : Stub) (branches : Branches) :
    ∃ strays : List Fault,
      stub.faults branches
        = strays ++ (repeated (stub.candidates branches)).map (.ambiguousMember stub.name)
      ∧ ∀ fault ∈ strays, ∃ value target, fault = .invalidMapping stub.name value target := by
  have hunion : ∀ (sketch : UnionSketch) (objects : List ObjectPojo),
      ∀ fault ∈ sketch.faults stub.name objects,
        ∃ value target, fault = .invalidMapping stub.name value target := by
    intro sketch objects fault hfault
    rw [UnionSketch.faults] at hfault
    split at hfault
    · exact ⟨_, _, List.mem_singleton.mp hfault⟩
    · cases hfault
  refine ⟨_, by rw [← repeats_eq_repeated]; rfl, fun fault hfault => ?_⟩
  rcases List.mem_append.mp hfault with hfault | hfault <;> split at hfault
  · exact hunion _ _ fault hfault
  · cases hfault
  · exact hunion _ _ fault hfault
  · cases hfault

/-- What is ambiguous in a stub are the names that its candidates repeat. -/
theorem ambiguous_faults (pojo : PojoName) :
    (stub.faults branches).filterMap (Fault.ambiguous? pojo)
      = if stub.name = pojo then repeated (stub.candidates branches) else [] := by
  obtain ⟨strays, hfaults, hstrays⟩ := exists_faults_eq stub branches
  have hnone : strays.filterMap (Fault.ambiguous? pojo) = [] := by
    rw [List.filterMap_eq_nil_iff]
    intro fault hfault
    obtain ⟨value, target, rfl⟩ := hstrays fault hfault
    rfl
  rw [hfaults, List.filterMap_append, hnone, List.nil_append, List.filterMap_map]
  split
  · rename_i hname
    have hall : Fault.ambiguous? pojo ∘ .ambiguousMember stub.name = some := by
      funext member
      simp [Fault.ambiguous?, hname]
    rw [hall, List.filterMap_some]
  · rename_i hname
    rw [List.filterMap_eq_nil_iff]
    intro member _
    simp [Fault.ambiguous?, hname]

theorem nodup_candidates_of_faults (h : stub.faults branches = []) :
    (stub.candidates branches).Nodup := by
  obtain ⟨strays, hfaults, -⟩ := exists_faults_eq stub branches
  rw [h, eq_comm, List.append_eq_nil_iff, List.map_eq_nil_iff, ← repeats_eq_repeated] at hfaults
  exact (repeats_eq_nil_iff.mp hfaults.2).1

theorem faults_ne_nil_of_candidates (h : ¬ (stub.candidates branches).Nodup) :
    stub.faults branches ≠ [] :=
  fun hnone => h (nodup_candidates_of_faults hnone)

end Stub

namespace ClassTable

variable {table : ClassTable} {stub : Stub}

/-- No round reports a member as ambiguous for a stub that is not ready. -/
theorem ambiguous_outcome_of_ne {pojo : PojoName} (h : stub.name ≠ pojo) :
    (table.outcome stub).faults.filterMap (Fault.ambiguous? pojo) = [] := by
  by_cases hready : table.IsReady stub
  · rw [faults_outcome_of_isReady hready, Stub.ambiguous_faults, if_neg h]
  · by_cases hvalid : table.invalidBranches stub = []
    · rw [outcome_of_not_isReady hready hvalid]
      rfl
    · rw [outcome_of_invalidBranches hvalid, List.filterMap_eq_nil_iff]
      intro fault hfault
      obtain ⟨⟨kind, name⟩, -, hbranch⟩ := List.mem_filterMap.mp hfault
      obtain ⟨obstacle, -, rfl⟩ := Option.map_eq_some_iff.mp hbranch
      rfl

/-- **What a round reports as ambiguous for a stub that is ready** are the names that its
candidates repeat, each time. -/
theorem ambiguous_faults (hnodup : (table.stubs.map (·.name)).Nodup) (hstub : stub ∈ table.stubs)
    (hready : table.IsReady stub) :
    table.faults.filterMap (Fault.ambiguous? stub.name)
      = repeated (stub.candidates (table.branchesOf stub)) := by
  obtain ⟨before, after, hsplit⟩ := List.append_of_mem hstub
  rw [hsplit] at hnodup
  have hothers : ∀ other ∈ before ++ after, other.name ≠ stub.name := by
    have hnames := (List.perm_middle.map fun other : Stub => other.name).nodup_iff.mp hnodup
    rw [List.map_cons, List.nodup_cons] at hnames
    intro other hother hname
    exact hnames.1 (hname ▸ List.mem_map_of_mem hother)
  have hnone : ∀ others : List Stub, (∀ other ∈ others, other.name ≠ stub.name) →
      (others.flatMap fun other => (table.outcome other).faults).filterMap
        (Fault.ambiguous? stub.name) = [] := by
    intro others hall
    rw [List.filterMap_flatMap, List.flatMap_eq_nil_iff]
    intro other hother
    exact ambiguous_outcome_of_ne (hall other hother)
  rw [faults, hsplit, List.flatMap_append, List.flatMap_cons, List.filterMap_append,
    List.filterMap_append, hnone before fun other h => hothers other (List.mem_append_left _ h),
    hnone after fun other h => hothers other (List.mem_append_right _ h),
    faults_outcome_of_isReady hready, Stub.ambiguous_faults, if_pos rfl]
  simp

theorem faults_ne_nil_of_candidates (hstub : stub ∈ table.stubs) (hready : table.IsReady stub)
    (h : ¬ (stub.candidates (table.branchesOf stub)).Nodup) : table.faults ≠ [] := by
  intro hnone
  have hclean := faults_eq_nil_iff.mp hnone stub hstub
  rw [faults_outcome_of_isReady hready] at hclean
  exact Stub.faults_ne_nil_of_candidates h hclean

/-! ## The last round -/

/-- A round without a verdict is followed by another one. -/
theorem settle_of_verdict?_eq_none {number : Nat} (h : table.verdict? = none) :
    settle number table
      = (.round (number + 1) table.stubs.length :: (settle (number + 1) table.advance).1,
        (settle (number + 1) table.advance).2) := by
  obtain ⟨hstubs, hfaults, hadvance⟩ := verdict?_eq_none_iff.mp h
  have hclean : Failure.of? table.faults = none := Failure.of?_eq_none_iff.mpr hfaults
  rw [settle, if_neg (by simpa using hstubs)]
  simp only [hclean, hadvance, dite_true]

/-- **Rounds without a verdict lead to the table after them.** -/
theorem settle_rounds {n : Nat} (number : Nat) (h : ∀ m < n, (table.rounds m).verdict? = none) :
    ∃ lines, settle number table
      = (lines ++ (settle (number + n) (table.rounds n)).1,
        (settle (number + n) (table.rounds n)).2) := by
  induction n with
  | zero => exact ⟨[], rfl⟩
  | succ n ih =>
    obtain ⟨lines, hlines⟩ := ih fun m hm => h m (Nat.lt_succ_of_lt hm)
    rw [settle_of_verdict?_eq_none (h n (Nat.lt_succ_self n))] at hlines
    refine ⟨lines ++ [.round (number + n + 1) (table.rounds n).stubs.length], ?_⟩
    rw [hlines, List.append_assoc]
    rfl

/-- **A round that reports something is the last one**, and fails with all that it reports. -/
theorem settle_of_faults {number : Nat} (hstubs : table.stubs ≠ []) {failure : Failure}
    (h : failure.faults = table.faults) :
    settle number table
      = ([.round (number + 1) table.stubs.length], .error failure) := by
  have hfailure : Failure.of? table.faults = some failure := by rw [← h]; rfl
  rw [settle, if_neg (by simpa using hstubs)]
  simp only [hfailure]

end ClassTable

end PojoGraph
