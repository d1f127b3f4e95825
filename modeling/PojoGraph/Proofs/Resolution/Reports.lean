import Mathlib.Data.List.Flatten
import Mathlib.Data.List.TakeDrop
import PojoGraph.Proofs.Dispatch.Runs
import PojoGraph.Proofs.Resolution.Ambiguity

/-!
# What a round reports

A round looks at every stub before it fails. For a stub with a branch that is no object it reports
each such branch, and for one whose branches are all there each member that repeats a name, and the
values that a discriminator maps to something other than a branch. Of these it reports only the
first of each union: the search for stray values stops at one, where all the others go on.

## Main definitions

* `ClassTable.IsObstructed` — what a branch name ends in instead of an object.
* `ClassTable.strays` — the values of a union that are mapped to no branch.
* `ClassTable.structuralFaults`, `ClassTable.reports` — what is wrong in a round, and what of it is
  reported.

## Main statements

* `ClassTable.obstacle?_lead_eq_some_iff` — names are followed to what obstructs them.
* `ClassTable.faults_eq_reports` — what a round reports.
* `structural_faults_reported_iff` — when that is all.
-/

namespace PojoGraph

/-- Lists of parts that keep their order are the same if and only if all parts are. -/
theorem flatMap_eq_flatMap_iff_of_sublist {α β : Type} {l : List α} {f g : α → List β}
    (h : ∀ a ∈ l, (f a).Sublist (g a)) :
    l.flatMap f = l.flatMap g ↔ ∀ a ∈ l, f a = g a := by
  induction l with
  | nil => simp
  | cons a rest ih =>
    have ha : (f a).Sublist (g a) := h a List.mem_cons_self
    have hrest : ∀ b ∈ rest, (f b).Sublist (g b) := fun b hb => h b (List.mem_cons_of_mem a hb)
    rw [List.forall_mem_cons, ← ih hrest, List.flatMap_cons, List.flatMap_cons]
    constructor
    · intro heq
      have hlength := congrArg List.length heq
      rw [List.length_append, List.length_append] at hlength
      have hle := ha.length_le
      have hle' := (List.Sublist.flatMap_right rest hrest).length_le
      have hfirst : f a = g a := ha.eq_of_length (by omega)
      rw [hfirst] at heq
      exact ⟨hfirst, List.append_cancel_left heq⟩
    · rintro ⟨hfirst, heq⟩
      rw [hfirst, heq]

/-! ## Obstructed branches -/

namespace ClassTable

variable {table : ClassTable} {stub : Stub} {name : PojoName} {obstacle : Obstacle}

/-- What the chain from a name ends in where it ends in no object, no stub and not nowhere: a pojo
that can be no branch, a plain member that is no reference, or a circle. -/
inductive IsObstructed (table : ClassTable) (name : PojoName) : Obstacle → Prop where
  | pojo {pojo : Pojo} {obstacle : Obstacle} (hends : table.EndsIn name.key (some (.pojo pojo)))
      (hbranch : pojo.asBranch = .error obstacle) : IsObstructed table name obstacle
  | plain {plain : PlainMember} (hends : table.EndsIn name.key (some (.plain plain))) :
    IsObstructed table name .plainMember
  | cyclic (hends : ∀ stop, ¬ table.EndsIn name.key stop) :
    IsObstructed table name .cyclicReference

/-- **A name is followed to what obstructs it.** -/
theorem obstacle?_lead_eq_some_iff :
    (table.lead name).obstacle? = some obstacle ↔ table.IsObstructed name obstacle := by
  by_cases hends : ∃ stop, table.EndsIn name.key stop
  · obtain ⟨stop, hstop⟩ := hends
    rw [lead_of_endsIn hstop]
    constructor
    · intro h
      cases stop with
      | none => cases h
      | some classified =>
        cases classified with
        | stub stub => cases h
        | plain plain => cases h; exact .plain hstop
        | pojo pojo =>
          cases hbranch : pojo.asBranch with
          | ok object => simp [Lead.ofEnd, hbranch, Lead.obstacle?] at h
          | error found =>
            simp only [Lead.ofEnd, hbranch, Lead.obstacle?, Option.some.injEq] at h
            exact .pojo hstop (h ▸ hbranch)
    · intro h
      cases h with
      | pojo hpojo hbranch =>
        rw [hstop.unique hpojo]
        simp [Lead.ofEnd, hbranch, Lead.obstacle?]
      | plain hplain =>
        rw [hstop.unique hplain]
        rfl
      | cyclic hnone => exact absurd hstop (hnone stop)
  · rw [not_exists] at hends
    have hcyclic : table.lead name = .invalid .cyclicReference := by
      rcases table.lead_cases name with ⟨stop, hstop, -⟩ | hcyclic
      · exact absurd hstop (hends stop)
      · exact hcyclic
    rw [hcyclic]
    constructor
    · rintro ⟨⟩
      exact .cyclic hends
    · intro h
      cases h with
      | pojo hpojo hbranch => exact absurd hpojo (hends _)
      | plain hplain => exact absurd hplain (hends _)
      | cyclic _ => rfl

instance (table : ClassTable) (stub : Stub) : Decidable (table.IsReady stub) :=
  decidable_of_iff (table.invalidBranches stub = [] ∧ table.missing stub = []) isReady_iff.symm

end ClassTable

/-! ## Stray values -/

/-- The values of a union that are mapped to none of the given objects, with their targets. -/
def UnionSketch.strays (sketch : UnionSketch) (objects : List ObjectPojo) :
    List (String × PojoName) :=
  ((sketch.discriminator.bind (·.mapping)).getD []).filter fun entry =>
    !objects.any (·.name.isSame entry.2)

/-- The first stray value of a union is the only one that is reported. -/
theorem UnionSketch.faults_eq (sketch : UnionSketch) (owner : PojoName)
    (objects : List ObjectPojo) :
    sketch.faults owner objects = ((sketch.strays objects).take 1).map fun entry =>
      .invalidMapping owner entry.1 entry.2 := by
  rw [faults, strays, List.take_one, List.head?_filter]
  cases hdiscriminator : sketch.discriminator with
  | none => rfl
  | some discriminator =>
    have hstray : discriminator.stray? (objects.map (·.name))
        = (discriminator.mapping.getD []).find? fun entry =>
          !objects.any (·.name.isSame entry.2) := by
      simp only [DiscriminatorSketch.stray?, List.any_map, Function.comp_def]
    simp only [Option.bind_some, hstray]
    cases (discriminator.mapping.getD []).find? fun entry =>
      !objects.any (·.name.isSame entry.2) <;> rfl

namespace ClassTable

variable {table : ClassTable} {stub : Stub}

/-- The values of a union of a stub that are mapped to no branch. -/
def strays (table : ClassTable) (stub : Stub) (kind : UnionKind) : List (String × PojoName) :=
  match stub.sketch? kind with
  | some sketch => sketch.strays (table.objectsAt sketch.branches)
  | none => []

/-- What is wrong with a stub, given the stray values of its unions: the branches that are no
objects, and, where all branches are there, the stray values and the members that repeat a name. -/
def faultsOf (table : ClassTable) (stub : Stub)
    (strays : UnionKind → List (String × PojoName)) : List Fault :=
  table.invalidBranches stub
    ++ if table.IsReady stub then
        ([UnionKind.oneOf, .anyOf].flatMap strays).map
            (fun entry => .invalidMapping stub.name entry.1 entry.2)
          ++ (repeated (stub.candidates (table.branchesOf stub))).map (.ambiguousMember stub.name)
      else []

/-- All that is structurally wrong in a round. -/
def structuralFaults (table : ClassTable) : List Fault :=
  table.stubs.flatMap fun stub => table.faultsOf stub (table.strays stub)

/-- What of it is reported: of the stray values of a union, the first. -/
def reports (table : ClassTable) : List Fault :=
  table.stubs.flatMap fun stub => table.faultsOf stub fun kind => (table.strays stub kind).take 1

theorem unionFaults_eq (table : ClassTable) (stub : Stub) (kind : UnionKind) :
    table.unionFaults stub kind = ((table.strays stub kind).take 1).map fun entry =>
      .invalidMapping stub.name entry.1 entry.2 := by
  rw [unionFaults, strays]
  cases stub.sketch? kind with
  | none => rfl
  | some sketch => exact sketch.faults_eq stub.name (table.objectsAt sketch.branches)

/-- **What a round reports**, stub by stub. -/
theorem faults_eq_reports (table : ClassTable) : table.faults = table.reports := by
  rw [faults, reports]
  refine congrArg (List.flatMap · table.stubs) (funext fun stub => ?_)
  rw [faultsOf]
  by_cases hready : table.IsReady stub
  · rw [faults_outcome_of_isReady hready, faults_branchesOf, unionFaults_eq, unionFaults_eq,
      repeats_eq_repeated, (isReady_iff.mp hready).1, if_pos hready]
    simp [Stub.candidates]
  · rw [if_neg hready, List.append_nil]
    by_cases hvalid : table.invalidBranches stub = []
    · rw [outcome_of_not_isReady hready hvalid, hvalid]
      rfl
    · rw [outcome_of_invalidBranches hvalid]
      rfl

theorem faultsOf_sublist {strays strays' : UnionKind → List (String × PojoName)}
    (h : ∀ kind, (strays kind).Sublist (strays' kind)) :
    (table.faultsOf stub strays).Sublist (table.faultsOf stub strays') := by
  rw [faultsOf, faultsOf]
  refine List.Sublist.append_left ?_ _
  split
  · have hstrays : ([UnionKind.oneOf, .anyOf].flatMap strays).Sublist
        ([UnionKind.oneOf, .anyOf].flatMap strays') :=
      List.Sublist.flatMap_right _ fun kind _ => h kind
    exact (hstrays.map _).append_right _
  · exact List.Sublist.refl _

theorem faultsOf_eq_iff {strays strays' : UnionKind → List (String × PojoName)}
    (h : ∀ kind, (strays kind).Sublist (strays' kind)) :
    table.faultsOf stub strays = table.faultsOf stub strays'
      ↔ (table.IsReady stub → ∀ kind, strays kind = strays' kind) := by
  have hinjective : Function.Injective fun entry : String × PojoName =>
      Fault.invalidMapping stub.name entry.1 entry.2 := by
    rintro ⟨value, target⟩ ⟨value', target'⟩ heq
    cases heq
    rfl
  have hkinds : (∀ kind ∈ [UnionKind.oneOf, .anyOf], strays kind = strays' kind)
      ↔ ∀ kind, strays kind = strays' kind := by
    refine ⟨fun hall kind => hall kind ?_, fun hall kind _ => hall kind⟩
    cases kind <;> simp
  rw [faultsOf, faultsOf]
  by_cases hready : table.IsReady stub
  · rw [if_pos hready, if_pos hready, List.append_cancel_left_eq, List.append_cancel_right_eq,
      hinjective.list_map.eq_iff, flatMap_eq_flatMap_iff_of_sublist fun kind _ => h kind, hkinds]
    exact ⟨fun hall _ => hall, fun hall => hall hready⟩
  · simp [hready]

/-- What is reported keeps its order. -/
theorem reports_sublist (table : ClassTable) : table.reports.Sublist table.structuralFaults :=
  List.Sublist.flatMap_right _ fun _ _ => faultsOf_sublist fun _ => List.take_sublist 1 _

/-- **A round reports all that is wrong** if and only if no union of a stub that is ready has
several stray values. -/
theorem reports_eq_structuralFaults_iff (table : ClassTable) :
    table.reports = table.structuralFaults
      ↔ ∀ stub ∈ table.stubs, table.IsReady stub → ∀ kind, (table.strays stub kind).length ≤ 1 := by
  rw [reports, structuralFaults,
    flatMap_eq_flatMap_iff_of_sublist fun _ _ => faultsOf_sublist fun _ => List.take_sublist 1 _]
  refine forall₂_congr fun stub _ => ?_
  rw [faultsOf_eq_iff fun _ => List.take_sublist 1 _]
  simp only [List.take_eq_self_iff]

theorem faultsOf_eq_nil_iff {strays : UnionKind → List (String × PojoName)} :
    table.faultsOf stub strays = [] ↔ table.invalidBranches stub = []
      ∧ (table.IsReady stub → (∀ kind ∈ [UnionKind.oneOf, .anyOf], strays kind = [])
        ∧ repeated (stub.candidates (table.branchesOf stub)) = []) := by
  rw [faultsOf, List.append_eq_nil_iff]
  by_cases hready : table.IsReady stub
  · simp [hready, and_assoc]
  · simp [hready]

/-- A round in which something is wrong reports something. -/
theorem reports_eq_nil_iff (table : ClassTable) :
    table.reports = [] ↔ table.structuralFaults = [] := by
  simp only [reports, structuralFaults, List.flatMap_eq_nil_iff, faultsOf_eq_nil_iff,
    List.take_eq_nil_iff, Nat.one_ne_zero, false_or]

/-- A name leads to an object if and only if its chain ends in a pojo that can be a branch. -/
theorem exists_lead_eq_object_iff {name : PojoName} :
    (∃ object, table.lead name = .object object) ↔ table.EndsInBranch name.key := by
  constructor
  · rintro ⟨object, hobject⟩
    rcases exists_of_lead_rounds_eq_object (n := 0) hobject with hbranch | ⟨inner, -, hresolved⟩
    · exact hbranch
    · cases hresolved
  · exact fun hbranch => lead_rounds_of_endsInBranch hbranch 0

end ClassTable

/-! ## Texts -/

namespace Failure

variable {failure : Failure}

/-- One fault is reported by its own text. -/
theorem message_of_faults_eq_singleton {fault : Fault} (h : failure.faults = [fault]) :
    failure.message = fault.message := by
  obtain ⟨first, others⟩ := failure
  cases h
  rfl

/-- Several faults are counted, and reported one a line. -/
theorem message_of_one_lt_length (h : 1 < failure.faults.length) :
    failure.message = toString failure.faults.length ++ " errors:\n  "
      ++ Text.joinWith "\n  " (failure.faults.map Fault.message) := by
  have hothers : failure.others ≠ [] := by
    intro hnil
    simp [faults, hnil] at h
  rw [message, if_neg (by simpa using hothers)]

end Failure

/-! ## Rounds -/

namespace ClassTable

variable {table : ClassTable} {n : Nat}

/-- **What a round with structural faults reports.** Take a round in which something is structurally
wrong: with a stub some of whose branch names end in something that is no object, or in a circle, or
with a stub that is ready, since all of its branch names end in objects. Resolution fails with all
that is wrong with any stub, in the order of the table, except that of the stray values of a union
only the first is reported. So it reports everything if and only if no union of a stub that is ready
has two stray values. A single fault is reported by itself, and several are listed. -/
theorem structural_faults_reported_iff (number : Nat)
    (hround : ∀ m < n, (table.rounds m).verdict? = none)
    (hfaulty : (table.rounds n).structuralFaults ≠ []) :
    (∀ name obstacle, ((table.rounds n).lead name).obstacle? = some obstacle
        ↔ (table.rounds n).IsObstructed name obstacle)
      ∧ (∀ stub, (table.rounds n).IsReady stub
        ↔ ∀ name ∈ stub.branchNames, (table.rounds n).EndsInBranch name.key)
      ∧ ∃ failure, (settle number table).2 = .error failure
        ∧ failure.faults = (table.rounds n).reports
        ∧ failure.faults.Sublist (table.rounds n).structuralFaults
        ∧ (failure.faults = (table.rounds n).structuralFaults
          ↔ ∀ stub ∈ (table.rounds n).stubs, (table.rounds n).IsReady stub →
            ∀ kind, ((table.rounds n).strays stub kind).length ≤ 1)
        ∧ (∀ fault, failure.faults = [fault] → failure.message = fault.message)
        ∧ (1 < failure.faults.length →
          failure.message = toString failure.faults.length ++ " errors:\n  "
            ++ Text.joinWith "\n  " (failure.faults.map Fault.message)) := by
  refine ⟨fun name obstacle => obstacle?_lead_eq_some_iff, fun stub => ?_, ?_⟩
  · exact forall₂_congr fun name _ => exists_lead_eq_object_iff
  · have hstubs : (table.rounds n).stubs ≠ [] := by
      intro hnone
      exact hfaulty (by rw [structuralFaults, hnone, List.flatMap_nil])
    obtain ⟨failure, hfailure⟩ : ∃ failure : Failure, failure.faults = (table.rounds n).faults := by
      rw [ne_eq, ← reports_eq_nil_iff, ← faults_eq_reports] at hfaulty
      obtain ⟨first, others, heq⟩ := List.exists_cons_of_ne_nil hfaulty
      exact ⟨⟨first, others⟩, heq.symm⟩
    obtain ⟨lines, hsettle⟩ := settle_rounds number hround
    rw [settle_of_faults hstubs hfailure] at hsettle
    rw [faults_eq_reports] at hfailure
    refine ⟨failure, by rw [hsettle], hfailure, ?_, ?_, ?_, ?_⟩
    · rw [hfailure]
      exact reports_sublist _
    · rw [hfailure]
      exact reports_eq_structuralFaults_iff _
    · exact fun fault => Failure.message_of_faults_eq_singleton
    · exact Failure.message_of_one_lt_length

/-- Cats, a color, pets, which are cats that the given mapping tells apart, and paint, which is
composed of a color. -/
def petTable (mapping : Dictionary PojoName) : ClassTable :=
  [("cat", .pojo (.object { name := ⟨"Cat", ""⟩ })),
    ("color", .pojo (.enum ⟨"Color", ""⟩ none [⟨"red", none⟩])),
    ("pet", .stub
      { name := ⟨"Pet", ""⟩
        oneOf := some ⟨[⟨"Cat", ""⟩], some ⟨"kind", some mapping⟩⟩ }),
    ("paint", .stub { name := ⟨"Paint", ""⟩, allOf := some [⟨"Color", ""⟩] })]

/-- A stray value and a color that is no object are reported together. -/
theorem structural_faults_reported_iff_hound :
    ∃ failure, (settle 0 (petTable [("cat", ⟨"Cat", ""⟩), ("hound", ⟨"Hound", ""⟩)])).2
        = .error failure
      ∧ failure.faults = [.invalidMapping ⟨"Pet", ""⟩ "hound" ⟨"Hound", ""⟩,
        .invalidBranch ⟨"Paint", ""⟩ .allOf ⟨"Color", ""⟩ .enum] := by
  have hround : ∀ m < 0, ((petTable [("cat", ⟨"Cat", ""⟩), ("hound", ⟨"Hound", ""⟩)]).rounds
      m).verdict? = none := fun m hm => absurd hm m.not_lt_zero
  obtain ⟨-, -, failure, hfailure, hreports, -⟩ :=
    structural_faults_reported_iff 0 hround (by decide +kernel)
  refine ⟨failure, hfailure, hreports.trans ?_⟩
  decide +kernel

/-- **A second stray value is not reported**: of the two values that are mapped to no branch, only
the first is. -/
theorem second_stray_unreported :
    ∃ failure, (settle 0 (petTable [("hound", ⟨"Hound", ""⟩), ("puppy", ⟨"Puppy", ""⟩)])).2
        = .error failure
      ∧ failure.faults = [.invalidMapping ⟨"Pet", ""⟩ "hound" ⟨"Hound", ""⟩,
        .invalidBranch ⟨"Paint", ""⟩ .allOf ⟨"Color", ""⟩ .enum]
      ∧ (petTable [("hound", ⟨"Hound", ""⟩), ("puppy", ⟨"Puppy", ""⟩)]).structuralFaults
        = [.invalidMapping ⟨"Pet", ""⟩ "hound" ⟨"Hound", ""⟩,
          .invalidMapping ⟨"Pet", ""⟩ "puppy" ⟨"Puppy", ""⟩,
          .invalidBranch ⟨"Paint", ""⟩ .allOf ⟨"Color", ""⟩ .enum] := by
  let failure : Failure := ⟨.invalidMapping ⟨"Pet", ""⟩ "hound" ⟨"Hound", ""⟩,
    [.invalidBranch ⟨"Paint", ""⟩ .allOf ⟨"Color", ""⟩ .enum]⟩
  have hfaults : failure.faults
      = (petTable [("hound", ⟨"Hound", ""⟩), ("puppy", ⟨"Puppy", ""⟩)]).faults := by decide +kernel
  refine ⟨failure, ?_, rfl, by decide +kernel⟩
  rw [settle_of_faults (by decide +kernel) hfaults]

end ClassTable

end PojoGraph
