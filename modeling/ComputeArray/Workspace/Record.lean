import ComputeArray.Workspace.Run

/-!
# Records of steps

A record holds what a step answered, what it asked of the device, what it logged, and what state it
left behind.
-/

set_option autoImplicit false

namespace ComputeArray

/-- The pending buffers in order, or their number and both ends if they are many. -/
inductive PendingSummary where
  | all (entries : List (Nat × Nat))
  | ends (count : Nat) (first last : Nat × Nat)

structure Snapshot where
  serial : Nat
  pending : PendingSummary
  /-- The flags of each named array. -/
  arrays : List (String × String)

structure StepRecord where
  report : Report
  calls : List Call
  log : List (Severity × String)
  snapshot : Snapshot

namespace PendingSummary

def entryLe (a b : Nat × Nat) : Bool := a.1 < b.1 || (a.1 = b.1 && a.2 ≤ b.2)

def ofList (entries : List (Nat × Nat)) : PendingSummary :=
  let sorted := entries.mergeSort entryLe
  if sorted.length ≤ 16 then .all sorted
  else .ends sorted.length (sorted.headD (0, 0)) (sorted.getLastD (0, 0))

end PendingSummary

namespace ArrayState

/-- A letter for each of: host copy newer, device newer, released. -/
def flags (array : ArrayState) : String :=
  (if array.hostDirty then "h" else "") ++ (if array.deviceDirty then "d" else "")
    ++ (if array.released then "r" else "")

end ArrayState

namespace Workspace

def create (device : Device) (options : Options) : Workspace := ⟨.create device options, []⟩

def snapshot (workspace : Workspace) : Snapshot :=
  ⟨workspace.engine.serial, .ofList workspace.engine.pending,
    workspace.arrays.map fun (name, buffer) => (name, (workspace.engine.array buffer).flags)⟩

/-- Carries out a step and records it. -/
def record (step : Step) : StateM Workspace StepRecord := do
  let before := (← get).engine
  let report ← Session.report (Session.run none step)
  let workspace ← get
  let engine := workspace.engine
  let calls := (engine.device.calls.toList.drop before.device.calls.size)
  let log := (engine.log.toList.drop before.log.size)
  return ⟨report, Call.arranged calls, log, workspace.snapshot⟩

/-- The records of steps carried out in turn. -/
def recordAll (steps : List Step) (workspace : Workspace) : List StepRecord :=
  ((steps.mapM record).run workspace).1

end Workspace

end ComputeArray
