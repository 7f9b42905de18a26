import ComputeArray.Engine.Construct
import ComputeArray.Engine.Generator
import ComputeArray.Engine.Method
import ComputeArray.Workspace.Basic

/-!
# Running steps

`Session.run` carries out one step. A failing step leaves what it did before it failed. What nothing
leads to any more is released when a step is over, whether it failed or not.
-/

set_option autoImplicit false

namespace ComputeArray.Session

/-- The operands of a step, with the array of the output. -/
def resolveOperands (round : Option Nat) (operands : Operands) :
    Session (List Value × Option Value) := do
  let arguments ← resolveArguments round operands.arguments
  match operands.out with
  | none => return (arguments, none)
  | some name => return (arguments, some (← arrayValue name))

/-- Makes an array. -/
def make (round : Option Nat) : Making → Session Nat
  | .layout shape elementName strides => do
    let shape ← resolve shape
    let elementName ← resolve elementName
    let strides ← resolve strides
    act (Action.newArray shape elementName strides)
  | .full value shape elementName => do
    let value ← resolve value
    let shape ← resolve shape
    let elementName ← resolve elementName
    act (Action.full value shape elementName)
  | .range arguments named => do
    let arguments ← resolveArguments round arguments
    let named ← resolveNamed named
    act (Action.range arguments named)
  | .table value => do
    let value ← resolve value
    act (Action.ofTable value)
  | .call name operands => do
    let (arguments, out) ← resolveOperands round operands
    act (Action.callByName name arguments out)
  | .elementwise tag operands => do
    let (arguments, out) ← resolveOperands round operands
    act (Action.elementwise tag arguments (out.getD .none))
  | .reduce tag operands => do
    let (arguments, out) ← resolveOperands round operands
    act (Action.callReduce tag arguments out)
  | .arithmetic symbol left right => do
    let left ← resolve left
    let right ← resolve right
    act (Action.arithmetic symbol left right)
  | .named name => array name
  | .reshaped name extents => do
    let buffer ← array name
    let extents ← resolveArguments round extents
    act (Action.reshape buffer extents)
    return buffer
  | .uniform name elementName => do
    let state ← generator name
    let elementName ← resolve elementName
    act (Action.drawUniform state elementName)
  | .normal name elementName => do
    let state ← generator name
    let elementName ← resolve elementName
    act (Action.drawNormal state elementName)

/-- Names what a step has made. -/
def bindResult (name : Option String) (handle : Handle) : Session Unit :=
  match name with
  | none => pure ()
  | some name => modify (Workspace.bind name handle)

/-- An action that answers nothing. -/
def perform (action : Action Unit) : Session Answer := do
  act action
  return .nothing

def describeGenerator (state : Nat) : Session Answer := do
  let engine := (← get).engine
  let array := engine.array state
  let description ← ofExcept (engine.describeArray state)
  return .generatorState (engine.generator state) description array.hostElements array.hostDirty
    array.deviceDirty

def resolveDispatch (term : DispatchTerm) : Session Dispatch := do
  let bindings ← term.bindings.mapM fun (name, mode) => do
    let buffer ← array name
    let mode ← resolve mode
    return (Resource.array buffer, ← ofExcept (Mode.ofValue mode))
  let constants ← resolveNamed term.constants
  return ⟨term.source, bindings, term.lanes, constants⟩

/-- A step that holds no further steps. -/
def runSimple (round : Option Nat) : Step → Session Answer
  | .make making name => do
    let buffer ← make round making
    bindResult name (.array buffer)
    describeArray buffer
  | .makeGenerator size seed entropy name => do
    let size ← resolve size
    let seed ← resolve seed
    let entropy ← resolve entropy
    let state ← act (Action.newGenerator size seed entropy)
    bindResult name (.generator state)
    return .generator ((← get).engine.generator state).shown
  | .drop name => do
    let _ ← handle name
    modify (Workspace.unbind name)
    return .nothing
  | .describe name => do describeArray (← array name)
  | .hostElements name => do
    let array := (← get).engine.array (← array name)
    return .elements array.element [array.size] array.hostElements
  | .deviceBytes name => do
    let buffer ← array name
    return .bytes ((← get).engine.device.bytesOf buffer)
  | .poke name start bytes => do
    let buffer ← array name
    perform (Action.changeDevice fun device =>
      device.setBytes buffer ((device.bytesOf buffer).overwrite start bytes))
  | .set name value index => do
    let buffer ← array name
    let value ← resolve value
    let index ← resolveAll index
    perform (Action.setValue buffer value index)
  | .element name index => do
    let buffer ← array name
    let index ← resolveAll index
    return .value (← act (Action.getElement buffer index))
  | .hostElement name index => do
    let buffer ← array name
    let index ← resolveAll index
    return .value (← act (Action.hostElement buffer index))
  | .elements name => do
    let buffer ← array name
    let bits ← act (Action.readElements buffer)
    let array := (← get).engine.array buffer
    return .elements array.element array.shape bits
  | .send name => do perform (Action.send (← array name))
  | .loadBlocking name => do perform (Action.loadBlocking (← array name))
  | .markDeviceDirty name => do perform (Action.markDeviceDirty (← array name))
  | .release name => do
    let buffer ← array name
    perform (modify (Engine.release buffer))
  | .skip name => do perform (Action.skipDraw (← generator name))
  | .describeGenerator name => do describeGenerator (← generator name)
  | .grid lanes => do
    let (x, y) ← act (Action.grid lanes)
    return .value (.list [.int x, .int y, .int 1])
  | .synchronize blocking => perform (Action.synchronize blocking)
  | .retire serial => perform (modify (Engine.retire serial))
  | .destroy => perform Action.destroy
  | .markLost arguments => do
    perform (Action.markLost (← resolveArguments round arguments))
  | .assertActive => perform Action.assertActive
  | .describeEngine => return .engine (← get).engine.describe
  | .describeCaches => return .caches (← get).engine.describeCaches
  | .setCompiler compiler =>
    perform (Action.changeDevice fun device => { device with compiler })
  | .createLayout modes => do
    let modes ← resolve modes
    let (signature, layout) ← act (Action.createLayoutFor modes)
    return .value (.list [.text signature, .int layout])
  | .createModule source => do
    let module ← act (Action.createModule source)
    return .value (.int module)
  | .createPipeline source modes constants => do
    let modes ← resolve modes
    let constants ← resolveNamed constants
    let (pipeline, signature) ← act (Action.createPipelineFor source modes constants)
    return .value (.list [.int pipeline, .text signature])
  | .submit dispatches copies => do
    let dispatches ← dispatches.mapM resolveDispatch
    let copies ← copies.mapM fun (source, target) => do return (← array source, ← array target)
    let serial ← act (Action.submit dispatches [] copies)
    return .value (.int serial)
  | .load .. => return .nothing
  | .repeated .. => return .nothing

/-- What an attempt at an action comes to. -/
def attempt {α : Type} (action : Action α) : Session (Except Failure α) :=
  act (ExceptT.mk do return .ok (← action.run))

/-- The first failure among outcomes. -/
def firstFailure {α : Type} : List (Except Failure α) → Option Failure
  | [] => none
  | .error failure :: _ => some failure
  | .ok _ :: rest => firstFailure rest

/-- Whether an outcome says that a load was started. -/
def wasStarted : Except Failure Bool → Bool
  | .ok started => started
  | .error _ => false

/-- The outcome of a step, after which lapsed arrays are released. -/
def report (step : Session Answer) : StateM Workspace Report := do
  let result ← step.run
  modify Workspace.collect
  return result

/-- The number of calls of each kind. -/
def countCalls (calls : List Call) : List (String × Nat) :=
  let kinds := (calls.map Call.kind).eraseDups
  kinds.map fun kind => (kind, (calls.filter (·.kind = kind)).length)

def callCount : Session Nat := do
  return (← get).engine.device.calls.size

/-- The calls after the first `count`, which are taken off the trace. -/
def takeCalls (count : Nat) : Session (List Call) := do
  let calls := (← get).engine.device.calls
  act (Action.changeDevice fun device => { device with calls := calls.take count })
  return (calls.toList.drop count)

mutual

/-- Carries out a step; `round` is the number of the round if the step is repeated. -/
def run (round : Option Nat) : Step → Session Answer
  | .load names during => do
    let buffers := (← names.mapM array).eraseDups
    buffers.forM fun buffer => act (Action.requestLoad buffer)
    let outcomes ← buffers.mapM fun buffer => attempt (Action.startLoad buffer)
    let reports ← if outcomes.any wasStarted then runAll none during else pure []
    buffers.forM fun buffer => act (Action.finishLoad buffer)
    match firstFailure outcomes with
    | some failure => throw failure
    | none => return .reports reports
  | .repeated count steps => do
    let start ← callCount
    let last ← (List.range count).foldlM (fun _ i => runAll (some i) steps) []
    return .rounds last (countCalls (← takeCalls start))
  | step => runSimple round step

/-- The reports of steps carried out one after the other. -/
def runAll (round : Option Nat) : List Step → Session (List Report)
  | [] => return []
  | step :: rest => do
    let first ← ExceptT.mk do return .ok (← report (run round step))
    return first :: (← runAll round rest)

end

end ComputeArray.Session
