import ComputeArray.Device.Basic
import ComputeArray.Element.Basic
import ComputeArray.Options
import ComputeArray.Signature

/-!
# The engine

An engine owns one device and what is derived from it: the arrays with their copies in host memory,
the caches of layouts, modules and pipelines, and the queue of buffers to be destroyed once the work
that uses them is done. An action of the engine may fail, and keeps what it did up to the failure.
-/

set_option autoImplicit false

namespace ComputeArray

/-- A copy of a device buffer on its way to the host. -/
structure ReadBack where
  staging : Nat
  serial : Nat
  /-- The version of the device buffer that was copied. -/
  version : Nat

/-- How far an asynchronous load of an array has come. -/
inductive Loading where
  | idle
  | scheduled
  | copying (readBack : ReadBack)
  deriving Inhabited

namespace Loading

def isUnderWay : Loading → Bool
  | .idle => false
  | _ => true

end Loading

/-- An array with a copy in host memory. The number of its device buffer stands for the array. -/
structure ArrayState where
  element : ElementType
  shape : List Nat
  strides : List Nat
  /-- Whether the strides were given by the caller. -/
  customStrides : Bool
  /-- The number of host elements as machine words have it, in which large extents may multiply out
  to -1; padding is not counted. -/
  count : Int
  storage : Bytes
  /-- Whether the host copy has writes the device has not seen. -/
  hostDirty : Bool
  /-- Whether the device buffer has writes the host has not seen. -/
  deviceDirty : Bool
  version : Nat
  loading : Loading
  released : Bool
  deriving Inhabited

/-- A random generator. The array with its streams stands for it. -/
structure Generator where
  size : Nat
  seed : Int
  /-- The second samples of the last normal draw, if no draw has used them. -/
  kept : Option (ElementType × Nat)
  deriving Inhabited

structure LossNotice where
  reason : Value
  message : Value

inductive Severity where
  | info
  | warning
  | error

namespace Severity

def name : Severity → String
  | .info => "INFO"
  | .warning => "WARNING"
  | .error => "ERROR"

end Severity

/-- What tells pipelines with constants apart. -/
structure TunedKey where
  source : String
  signature : String
  constants : List (String × Value)

structure Engine where
  device : Device
  options : Options
  lost : Option LossNotice
  /-- The number of submissions made. -/
  serial : Nat
  /-- Buffers to destroy, each with the serial that must be complete first. -/
  pending : List (Nat × Nat)
  layouts : List (String × Nat)
  modules : List (String × Nat)
  pipelines : List ((String × String) × Nat)
  /-- Pipelines with constants, the least recently used first. -/
  tunedPipelines : List (TunedKey × Nat)
  arrays : List (Nat × ArrayState)
  generators : List (Nat × Generator)
  log : Array (Severity × String)

namespace Engine

def create (device : Device) (options : Options) : Engine :=
  ⟨device, options, none, 0, [], [], [], [], [], [], [], #[]⟩

/-- The lanes of a workgroup: as many as the options ask for, within the limits of the device. -/
def workgroupSize (engine : Engine) : Int :=
  min (min engine.options.workgroupSize engine.device.limits.workgroupSizeX)
    engine.device.limits.workgroupInvocations

def maxWorkgroups (engine : Engine) : Int := engine.device.limits.workgroupsPerDimension

def hasHalf (engine : Engine) : Bool := engine.device.hasHalf

def isLost (engine : Engine) : Bool := engine.lost.isSome

def stateName (engine : Engine) : String := if engine.isLost then "lost" else "active"

def shown (engine : Engine) : String :=
  "GPUBackend(state=" ++ engine.stateName ++ s!", workgroup_size={engine.workgroupSize}, f16="
    ++ Value.boolText engine.hasHalf ++ ")"

def array (engine : Engine) (buffer : Nat) : ArrayState :=
  (engine.arrays.lookup buffer).getD default

def setArray (buffer : Nat) (array : ArrayState) (engine : Engine) : Engine :=
  { engine with
    arrays := engine.arrays.map fun (key, old) => (key, if key = buffer then array else old) }

def addArray (buffer : Nat) (array : ArrayState) (engine : Engine) : Engine :=
  { engine with arrays := engine.arrays ++ [(buffer, array)] }

def generator (engine : Engine) (state : Nat) : Generator :=
  (engine.generators.lookup state).getD default

def setGenerator (state : Nat) (generator : Generator) (engine : Engine) : Engine :=
  { engine with
    generators := engine.generators.map fun (key, old) =>
      (key, if key = state then generator else old) }

def addGenerator (state : Nat) (generator : Generator) (engine : Engine) : Engine :=
  { engine with generators := engine.generators ++ [(state, generator)] }

def note (severity : Severity) (text : String) (engine : Engine) : Engine :=
  { engine with log := engine.log.push (severity, text) }

/-- The reason of a loss that was asked for. -/
def destroyedReason : String := "destroyed"

/-- Moves to the terminal lost state; the first notice is kept and nothing is pending any more. A
loss that was asked for is no error. -/
def markLost (wanted : Bool) (reason message : Value) (engine : Engine) : Engine :=
  match engine.lost with
  | some _ => engine
  | none =>
    let logged :=
      if wanted then engine.note .info "GPU device destroyed"
      else engine.note .error
        ("GPU device lost: reason=" ++ reason.inSentence ++ " message=" ++ message.inSentence)
    { logged with lost := some ⟨reason, message⟩, pending := [] }

/-- Puts a buffer into the queue, to be destroyed once all work submitted so far is done. -/
def deferRelease (buffer : Nat) (engine : Engine) : Engine :=
  if engine.isLost then engine
  else { engine with pending := engine.pending ++ [(engine.serial, buffer)] }

/-- Destroys the pending buffers from the front up to the given serial. -/
def retire (serial : Int) (engine : Engine) : Engine :=
  let due := engine.pending.takeWhile fun (needed, _) => needed ≤ serial
  { engine with
    device := due.foldl (fun device (_, buffer) => device.record (.destroyBuffer buffer))
      engine.device
    pending := engine.pending.dropWhile fun (needed, _) => needed ≤ serial }

/-- Hands an array's buffer over for destruction, the first time only. -/
def release (buffer : Nat) (engine : Engine) : Engine :=
  let array := engine.array buffer
  if array.released then engine
  else (engine.setArray buffer { array with released := true }).deferRelease buffer

end Engine

/-- Actions of an engine. -/
abbrev Action (α : Type) := ExceptT Failure (StateM Engine) α

namespace Action

/-- Lets the device act. -/
def onDevice {α : Type} (act : Device → α × Device) : Action α :=
  modifyGet fun engine =>
    let (result, device) := act engine.device
    (result, { engine with device })

def changeDevice (change : Device → Device) : Action Unit :=
  modify fun engine => { engine with device := change engine.device }

def array (buffer : Nat) : Action ArrayState := do
  return (← get).array buffer

def changeArray (buffer : Nat) (change : ArrayState → ArrayState) : Action Unit :=
  modify fun engine => engine.setArray buffer (change (engine.array buffer))

/-- Fails once the device is lost. -/
def assertActive : Action Unit := do
  match (← get).lost with
  | some notice => throw (.deviceLost notice.reason notice.message)
  | none => pure ()

/-- The outcome of a computation without state. -/
def ofExcept {α : Type} (result : Except Failure α) : Action α := MonadExcept.ofExcept result

def lossSignature : Signature := ⟨"GPUBackend.mark_lost", ["reason"], [("message", .text "")]⟩

/-- Records the loss of the device, with a reason and perhaps a message. -/
def markLost (arguments : List Value) : Action Unit := do
  let values ← ofExcept (lossSignature.bind arguments [])
  if (← get).isLost then return
  let reason := values.getD 0 .none
  let wanted ← ofExcept (reason.equalsText Engine.destroyedReason)
  modify (Engine.markLost wanted reason (values.getD 1 .none))

/-- Destroys the device; every later action that needs it fails. -/
def destroy : Action Unit := do
  let engine ← get
  if engine.isLost then return
  match engine.device.destroy with
  | .error message => throw (.device message)
  | .ok device =>
    set { engine with device }
    modify (Engine.markLost true (.text Engine.destroyedReason)
      (.text "device destroyed by destroy()"))

/-- Waits for all submitted work and destroys what was pending on it. -/
def synchronize (blocking : Bool) : Action Unit := do
  assertActive
  let serial := (← get).serial
  changeDevice (Device.record (.awaitQueue blocking))
  modify (Engine.retire serial)

/-- Submits commands under the next serial. -/
def submitCommands (commands : List Command) : Action Nat := do
  changeDevice (Device.submit commands)
  modify fun engine => { engine with serial := engine.serial + 1 }
  return (← get).serial

end Action

end ComputeArray
