import ComputeArray.Engine.Basic

/-!
# Acquiring devices

An engine is requested from an adapter, with options given by the caller or read from the
environment. One engine is the default; it is requested when first needed and again when its device
is lost, and given up at the end.
-/

set_option autoImplicit false

namespace ComputeArray

structure Adapter where
  features : List String
  summary : String
  limits : Limits
  destroyFailure : Option String

/-- What is asked of the platform. -/
inductive PlatformCall where
  | requestAdapter (power : PowerPreference)
  | requestDevice (features : List String) (label : Value)

structure Acquisition where
  environment : Options.Environment
  adapter : Option Adapter
  /-- The engines made so far, in order. -/
  engines : List Engine
  /-- The position of the default engine. -/
  default : Option Nat
  calls : List PlatformCall
  log : List (Severity × String)

inductive AcquisitionStep where
  /-- Requests an engine; without settings the environment decides. -/
  | request (settings : Option Options.Settings)
  | getDefault
  | replaceAdapter (adapter : Option Adapter)
  /-- Engines are numbered in order, those with negative numbers from the end. -/
  | markLost (engine : Int) (arguments : List Value)
  | destroy (engine : Int)
  | cleanUp

/-- The outcome of a step, with what it asked and logged and the state of all engines after it. -/
structure AcquisitionRecord where
  /-- The engine the step gives, by its position. -/
  result : Except Failure (Option (Nat × Engine))
  calls : List PlatformCall
  log : List (Severity × String)
  engines : List Engine

abbrev Acquiring (α : Type) := ExceptT Failure (StateM Acquisition) α

namespace Acquiring

def ask (call : PlatformCall) : Acquiring Unit :=
  modify fun acquisition => { acquisition with calls := acquisition.calls ++ [call] }

def note (severity : Severity) (text : String) : Acquiring Unit :=
  modify fun acquisition => { acquisition with log := acquisition.log ++ [(severity, text)] }

def noAdapter : Failure := .deviceLost (.text "unavailable") (.text "No available GPU adapter")

/-- The features to ask for: half precision if it is wanted and there. -/
def wantedFeatures (options : Options) (adapter : Adapter) : Acquiring (List String) := do
  if !(← MonadExcept.ofExcept options.halfPrecision.truth) then return []
  if adapter.features.contains Device.halfFeature then return [Device.halfFeature]
  note .warning "shader-f16 is not supported by the adapter; f16 arrays disabled"
  return []

/-- Requests an engine and gives its position. -/
def request (settings : Option Options.Settings) : Acquiring Nat := do
  let acquisition ← get
  let options ← MonadExcept.ofExcept (match settings with
    | some settings => Options.ofSettings settings
    | none => Options.ofEnvironment acquisition.environment [])
  ask (.requestAdapter options.power)
  match acquisition.adapter with
  | none => throw noAdapter
  | some adapter =>
    let features ← wantedFeatures options adapter
    ask (.requestDevice features options.label)
    let engine := Engine.create (.create features adapter.limits adapter.destroyFailure) options
    note .info ("Using " ++ adapter.summary ++ ": " ++ engine.shown)
    modify fun acquisition => { acquisition with engines := acquisition.engines ++ [engine] }
    return acquisition.engines.length

/-- The position of the engine of a number. -/
def positionOf (number : Int) : Acquiring Nat := do
  let count := (← get).engines.length
  let position := if number < 0 then number + count else number
  if position < 0 then throw .noEngine
  return position.toNat

/-- Lets an engine act, and takes over what it logs. -/
def act (position : Nat) (action : Action Unit) : Acquiring Unit := do
  match (← get).engines[position]? with
  | none => throw .noEngine
  | some engine =>
    let (result, changed) := action.run.run engine
    modify fun acquisition =>
      { acquisition with
        engines := acquisition.engines.set position changed
        log := acquisition.log ++ changed.log.toList.drop engine.log.size }
    MonadExcept.ofExcept result

/-- The default engine if it is in use. -/
def activeDefault? (acquisition : Acquisition) : Option Nat :=
  acquisition.default.filter fun position =>
    (acquisition.engines[position]?).any fun engine => !engine.isLost

/-- The default engine, requested if there is none or its device is lost. -/
def getDefault : Acquiring Nat := do
  match activeDefault? (← get) with
  | some position => return position
  | none =>
    let position ← request none
    modify fun acquisition => { acquisition with default := some position }
    return position

/-- Destroys the default engine, whatever its device says, and gives it up. -/
def cleanUp : Acquiring Unit := do
  match (← get).default with
  | none => pure ()
  | some position =>
    try act position Action.destroy catch _ => pure ()
    modify fun acquisition => { acquisition with default := none }

/-- Carries out a step and gives the position of the engine it gives. -/
def carryOut : AcquisitionStep → Acquiring (Option Nat)
  | .request settings => some <$> request settings
  | .getDefault => some <$> getDefault
  | .replaceAdapter adapter => do
    modify fun acquisition => { acquisition with adapter }
    return none
  | .markLost number arguments => do
    act (← positionOf number) (Action.markLost arguments)
    return none
  | .destroy number => do
    act (← positionOf number) Action.destroy
    return none
  | .cleanUp => do
    cleanUp
    return none

end Acquiring

namespace Acquisition

def create (environment : Options.Environment) (adapter : Option Adapter) : Acquisition :=
  ⟨environment, adapter, [], none, [], []⟩

/-- Carries out a step and records it. -/
def record (step : AcquisitionStep) : StateM Acquisition AcquisitionRecord := do
  let before ← get
  let result ← (Acquiring.carryOut step).run
  let after ← get
  let engineOf (position : Nat) : Option (Nat × Engine) :=
    after.engines[position]?.map fun engine => (position, engine)
  return ⟨result.map fun position => position.bind engineOf, after.calls.drop before.calls.length,
    after.log.drop before.log.length, after.engines⟩

def recordAll (steps : List AcquisitionStep) (acquisition : Acquisition) :
    List AcquisitionRecord :=
  ((steps.mapM record).run acquisition).1

end Acquisition

end ComputeArray
