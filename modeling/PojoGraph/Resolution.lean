import PojoGraph.Composition
import PojoGraph.Sweep

/-!
# Resolution of compositions

After the sweep the branches of stubs are known by name. They are resolved in rounds: in each,
every stub all of whose branches lead to an object becomes a pojo, judged by the table before the
round. If no stub does, the rest can never be resolved, and all that they wait for is reported.

## Main definitions

* `Lead`, `ClassTable.lead` — where a branch name leads, through references.
* `ClassTable.faults`, `ClassTable.advance` — what a round reports, and the table after it.
* `ClassTable.settle` — all rounds.
* `resolve` — the sweep and the rounds together.
-/

namespace PojoGraph

/-! ## Branch names -/

/-- Where the name of a branch leads. -/
inductive Lead where
  /-- To an object. -/
  | object (object : ObjectPojo)
  /-- To a stub, or to nothing. -/
  | waiting
  /-- To something that is no branch. -/
  | invalid (obstacle : Obstacle)
  deriving Inhabited

/-- The object that a name leads to. -/
def Lead.object? : Lead → Option ObjectPojo
  | object o => some o
  | _ => none

/-- Whether a name leads to a stub or to nothing. -/
def Lead.isWaiting : Lead → Bool
  | waiting => true
  | _ => false

/-- What stands in the way of a name. -/
def Lead.obstacle? : Lead → Option Obstacle
  | invalid obstacle => some obstacle
  | _ => none

/-- What a named schema is once compositions are resolved. -/
inductive Resolved where
  | pojo (pojo : Pojo)
  | plain (plain : PlainMember)
  deriving Inhabited

/-- The name of the schema. -/
def Resolved.name : Resolved → PojoName
  | pojo p => p.name
  | plain m => m.name

namespace ClassTable

variable (table : ClassTable)

/-- Where a key leads. Plain members that are references are followed, at most `steps` times. -/
def leadFrom : (steps : Nat) → String → Lead
  | 0, _ => .invalid .cyclicReference
  | steps + 1, key =>
    match table.lookup? key with
    | some (.pojo pojo) =>
      match pojo.asBranch with
      | .ok object => .object object
      | .error obstacle => .invalid obstacle
    | some (.plain plain) =>
      match plain.type.objectName? with
      | some target => leadFrom steps target.key
      | none => .invalid .plainMember
    | some (.stub _) => .waiting
    | none => .waiting

/-- Where a branch name leads. References followed more often than there are entries go round
in a circle. -/
def lead (name : PojoName) : Lead :=
  table.leadFrom (table.length + 1) name.key

/-! ## Rounds -/

/-- The objects that a keyword's branch names lead to. -/
def objectsOf (stub : Stub) (kind : CompositionKind) : Option (List ObjectPojo) :=
  (stub.branchesOf kind).map (·.filterMap fun name => (table.lead name).object?)

/-- The objects that the branch names of a stub lead to. -/
def branchesOf (stub : Stub) : Branches where
  allOf := table.objectsOf stub .allOf
  oneOf := table.objectsOf stub .oneOf
  anyOf := table.objectsOf stub .anyOf

/-- The branches of a stub that are no objects, as faults. -/
def invalidBranches (stub : Stub) : List Fault :=
  stub.branches.filterMap fun (kind, name) =>
    (table.lead name).obstacle?.map (.invalidBranch stub.name kind name)

/-- The branch names of a stub that lead to stubs or to nothing. -/
def missing (stub : Stub) : List PojoName :=
  stub.branchNames.filter fun name => (table.lead name).isWaiting

/-- What a round makes of a stub. -/
inductive Outcome where
  | resolved (pojo : Pojo)
  | stuck (missing : List PojoName)
  | faulty (faults : List Fault)

/-- What a round makes of a stub: branches that are no objects go before missing ones. -/
def outcome (stub : Stub) : Outcome :=
  match table.invalidBranches stub, table.missing stub with
  | [], [] =>
    match stub.resolve (table.branchesOf stub) with
    | .ok pojo => .resolved pojo
    | .error faults => .faulty faults
  | [], missing => .stuck missing
  | faults, _ => .faulty faults

/-- The pojo that a round makes of a stub. -/
def Outcome.pojo? : Outcome → Option Pojo
  | resolved pojo => some pojo
  | _ => none

/-- What a round finds wrong with a stub. -/
def Outcome.faults : Outcome → List Fault
  | faulty faults => faults
  | _ => []

/-- The branches that a stub waits for. -/
def Outcome.missing? : Outcome → Option (List PojoName)
  | stuck missing => some missing
  | _ => none

/-- The stub of an entry that is one. -/
def stub? : Classified → Option Stub
  | .stub stub => some stub
  | _ => none

/-- The stubs of a table, in its order. -/
def stubs : List Stub :=
  table.filterMap fun entry => stub? entry.2

/-- All that a round finds wrong. -/
def faults : List Fault :=
  table.stubs.flatMap fun stub => (table.outcome stub).faults

/-- What the stubs wait for. -/
def stuck : List Stuck :=
  table.stubs.filterMap fun stub => (table.outcome stub).missing?.map (⟨stub.name, ·⟩)

/-- What becomes of an entry in a round. -/
def advanceEntry (classified : Classified) : Classified :=
  match classified with
  | .stub stub => ((table.outcome stub).pojo?.map .pojo).getD classified
  | _ => classified

/-- The table after a round. -/
def advance : ClassTable :=
  table.map fun entry => (entry.1, table.advanceEntry entry.2)

/-- Whether a round resolves the stub. -/
def isResolvable (stub : Stub) : Bool :=
  (table.outcome stub).pojo?.isSome

/-- Whether a round resolves any stub. -/
def canAdvance : Bool :=
  table.stubs.any table.isResolvable

/-! ## All rounds -/

/-- The entries that are no stubs. -/
def entries : List Resolved :=
  table.filterMap fun entry =>
    match entry.2 with
    | .pojo pojo => some (.pojo pojo)
    | .plain plain => some (.plain plain)
    | .stub _ => none

/-- A round takes away the stubs that it resolves. -/
theorem length_stubs_advance :
    (advance table).stubs.length + table.stubs.countP (isResolvable table)
      = table.stubs.length := by
  suffices ∀ t : ClassTable, (stubs (t.map fun entry =>
      (entry.1, table.advanceEntry entry.2))).length + (stubs t).countP (isResolvable table)
        = (stubs t).length from this table
  intro t
  induction t with
  | nil => simp [stubs]
  | cons entry rest ih =>
    rcases entry with ⟨key, p | s | m⟩
    · simpa [stubs, advanceEntry, stub?] using ih
    · rcases h : (table.outcome s).pojo? <;>
        simp [stubs, advanceEntry, stub?, isResolvable, h] at ih ⊢ <;> omega
    · simpa [stubs, advanceEntry, stub?] using ih

theorem length_stubs_advance_lt (h : table.canAdvance) :
    (advance table).stubs.length < table.stubs.length := by
  have hcount : 0 < table.stubs.countP (isResolvable table) := by
    simpa [canAdvance, List.countP_pos_iff] using h
  have := table.length_stubs_advance
  omega

/-- Resolves all stubs, round by round; `number` rounds have been. -/
def settle (number : Nat) (table : ClassTable) : List LogLine × Except Failure (List Resolved) :=
  if table.stubs.isEmpty then ([], .ok table.entries)
  else
    let line := LogLine.round (number + 1) table.stubs.length
    match Failure.of? table.faults with
    | some failure => ([line], .error failure)
    | none =>
      if _ : table.canAdvance then
        let (lines, result) := settle (number + 1) table.advance
        (line :: lines, result)
      else ([line], .error ⟨.unresolvable table.stuck, []⟩)
termination_by table.stubs.length
decreasing_by exact length_stubs_advance_lt table ‹_›

end ClassTable

/-! ## Resolution of a run -/

/-- What a run of schemas resolves to, in the order in which they were found. -/
structure Resolution where
  entries : List Resolved
  warnings : List Warning := []
  deriving Inhabited

/-- Classifies the given schemas, whose names have been claimed, and all that are found in them,
and resolves their compositions. The log is kept also where this fails. -/
def resolve (settings : Settings) (registry : Registry) (roots : List Pending) :
    List LogLine × Except Failure Resolution :=
  let sweep := Sweep.run settings registry roots
  match Failure.of? sweep.allFaults with
  | some failure => (sweep.log, .error failure)
  | none =>
    let (lines, result) := sweep.table.settle 0
    (sweep.log ++ lines, result.map (⟨·, sweep.warnings⟩))

end PojoGraph
