import ComputeArray.Engine.Program
import ComputeArray.Engine.Transfer

/-!
# Submissions

A submission sends what its kernels read, encodes all passes and copies, and hands them to the
device under one serial. What the kernels write is newer on the device from then on. Too long a
queue of pending buffers makes a submission wait and drain it.
-/

set_option autoImplicit false

namespace ComputeArray

/-- What is bound to a slot: an array, or a buffer without a host copy. -/
inductive Resource where
  | array (buffer : Nat)
  | plain (buffer : Nat)

namespace Resource

def buffer : Resource → Nat
  | .array buffer => buffer
  | .plain buffer => buffer

end Resource

/-- One pass: the kernel's source, what is bound to its slots in order, the number of lanes and the
override constants. -/
structure Dispatch where
  source : String
  bindings : List (Resource × Mode)
  lanes : Int
  constants : List (String × Value)

namespace Dispatch

def modes (dispatch : Dispatch) : List Mode := dispatch.bindings.map Prod.snd

/-- The arrays bound with a mode that satisfies the condition, in the order of their slots. -/
def arrays (dispatch : Dispatch) (condition : Mode → Bool) : List Nat :=
  dispatch.bindings.filterMap fun (resource, mode) =>
    match resource with
    | .array buffer => if condition mode then some buffer else none
    | .plain _ => none

end Dispatch

namespace Engine

/-- The number of pending buffers a submission leaves in the queue at most. -/
def pendingLimit : Nat := 256

end Engine

/-- The least integer not below a quotient. -/
def ceilingDiv (n d : Int) : Int := -((-n).fdiv d)

/-- The grid of workgroups that covers the lanes: one row, or as many full rows as are needed. -/
def gridFor (workgroupSize maxWorkgroups lanes : Int) : Int × Int :=
  let groups := max 1 (ceilingDiv lanes workgroupSize)
  if groups ≤ maxWorkgroups then (groups, 1) else (maxWorkgroups, ceilingDiv groups maxWorkgroups)

namespace Action

/-- The grid of workgroups that covers the lanes on this device. -/
def grid (lanes : Int) : Action (Int × Int) := do
  let engine ← get
  if engine.workgroupSize = 0 ∨ engine.maxWorkgroups = 0 then throw .noWorkgroups
  return gridFor engine.workgroupSize engine.maxWorkgroups lanes

/-- The command of a pass. -/
def encode (dispatch : Dispatch) : Action Command := do
  let (pipeline, layout) ← createPipeline dispatch.source dispatch.modes dispatch.constants
  let device := (← get).device
  let buffers := dispatch.bindings.map fun (resource, _) =>
    (resource.buffer, device.sizeOf resource.buffer)
  return .dispatch pipeline layout buffers (← grid dispatch.lanes)

/-- The command of a copy between arrays, the target's host copy being sent first. -/
def encodeCopy (copy : Nat × Nat) : Action Command := do
  let (source, target) := copy
  send target
  return .copy source target ((← get).device.sizeOf target)

/-- Queues helper buffers for destruction after a submission, and drains a queue grown too long. -/
def settle (serial : Nat) (helpers : List Nat) : Action Unit := do
  modify fun engine =>
    { engine with pending := engine.pending ++ helpers.map fun buffer => (serial, buffer) }
  if Engine.pendingLimit < (← get).pending.length then
    changeDevice (Device.record (.awaitQueue true))
    modify (Engine.retire serial)

/-- Sends everything the passes read, and creates the encoder of their commands. -/
def beginEncoding (dispatches : List Dispatch) : Action Unit := do
  (dispatches.flatMap (·.arrays (· ≠ .write))).forM send
  changeDevice Device.createEncoder

/-- The commands of passes and then copies, after everything the passes read has been sent. -/
def prepare (dispatches : List Dispatch) (copies : List (Nat × Nat)) : Action (List Command) := do
  beginEncoding dispatches
  let passes ← dispatches.mapM encode
  let moves ← copies.mapM encodeCopy
  return passes ++ moves

/-- Hands commands to the device, having marked the arrays they write. -/
def handOver (dispatches : List Dispatch) (copies : List (Nat × Nat)) (commands : List Command) :
    Action Nat := do
  (dispatches.flatMap (·.arrays (· ≠ .read))).forM markDeviceDirty
  (copies.map Prod.snd).forM markDeviceDirty
  submitCommands commands

/-- Submits passes and then copies at once, giving the serial. The helper buffers are destroyed
when the submission is done. -/
def submit (dispatches : List Dispatch) (helpers : List Nat) (copies : List (Nat × Nat)) :
    Action Nat := do
  assertActive
  let commands ← prepare dispatches copies
  let serial ← handOver dispatches copies commands
  settle serial helpers
  return serial

end Action

end ComputeArray
