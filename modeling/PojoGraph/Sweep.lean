import PojoGraph.Classification

/-!
# Sweeping up all schemas

The named schemas of a run are classified pass by pass. Inline schemas found in one pass wait for
the next; the sweep is over when a pass finds none.

## Main definitions

* `Sweep` — the state between two passes.
* `Sweep.step`, `Sweep.pass` — one schema, and all that wait.
* `Sweep.run` — all passes of a run.
-/

namespace PojoGraph

/-- What named schemas turned out to be, by the keys of their names. -/
abbrev ClassTable := Dictionary Classified

/-- The state between two passes: the schemas that wait, and what the passes so far gave. -/
structure Sweep where
  pending : List Pending
  registry : Registry
  table : ClassTable := []
  warnings : List Warning := []
  faults : List Fault := []
  log : List LogLine := []
  /-- How many passes there have been. -/
  passes : Nat := 0
  deriving Inhabited

namespace Sweep

variable (settings : Settings)

/-- Classifies one schema. A fault does not end the sweep. -/
def step (sweep : Sweep) (schema : Pending) : Sweep :=
  match classify settings schema sweep.registry with
  | .error fault => { sweep with faults := sweep.faults ++ [fault] }
  | .ok (classified, survey) =>
    { sweep with
      pending := sweep.pending ++ survey.found
      registry := survey.registry
      table := sweep.table.insert classified.name.key classified
      warnings := sweep.warnings ++ survey.warnings
      log := sweep.log ++ classificationLog classified survey }

/-- The state in which a pass begins. -/
def begin (sweep : Sweep) : Sweep :=
  { sweep with
    pending := []
    passes := sweep.passes + 1
    log := sweep.log ++ [.pass (sweep.passes + 1) sweep.pending.length] }

/-- Classifies all schemas that wait. Where none does, nothing changes. -/
def pass (sweep : Sweep) : Sweep :=
  if sweep.pending.isEmpty then sweep else sweep.pending.foldl (step settings) sweep.begin

/-- The state after a number of passes. -/
def after (sweep : Sweep) : Nat → Sweep
  | 0 => sweep
  | n + 1 => after (sweep.pass settings) n

/-- As many passes as there are nodes in the schemas, and one more. A schema found in a pass
lies in one of the schemas before, so that later passes find none, unless one keeps finding
itself. -/
def enough (roots : List Pending) : Nat :=
  Schema.sizeOfAll (roots.map (·.schema)) + 1

/-- The state after all passes over the given schemas, whose names have been claimed. -/
def run (registry : Registry) (roots : List Pending) : Sweep :=
  after settings { pending := roots, registry } (enough roots)

/-- What the sweep found wrong. Schemas that still wait keep finding themselves. -/
def allFaults (sweep : Sweep) : List Fault :=
  if sweep.pending.isEmpty then sweep.faults
  else sweep.faults ++ [.endless (sweep.pending.map (·.name))]

/-- A pass over no schemas changes nothing. -/
theorem pass_of_isEmpty {sweep : Sweep} (h : sweep.pending.isEmpty) :
    sweep.pass settings = sweep := by
  simp [pass, h]

theorem after_of_isEmpty {sweep : Sweep} (h : sweep.pending.isEmpty) (n : Nat) :
    sweep.after settings n = sweep := by
  induction n with
  | zero => rfl
  | succ n ih => rw [after, pass_of_isEmpty settings h, ih]

end Sweep

end PojoGraph
