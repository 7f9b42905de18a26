import ComputeArray.Engine.Basic
import ComputeArray.Value.Integer
import ComputeArray.Value.Scalar

/-!
# Layouts, modules and pipelines

Layouts are kept by the signature of their modes, modules by their source, and pipelines by both.
Constants are part of a pipeline, so pipelines with constants are kept by their constants too, and
only the most recently used of them. Constants that are equal as numbers share a pipeline.
-/

set_option autoImplicit false

namespace ComputeArray

namespace TunedKey

/-- Whether two constants are the same to the cache. -/
def sameConstant (a b : Value) : Bool :=
  match Scalar.ofValue? a, Scalar.ofValue? b with
  | some x, some y => x.sameNumber y
  | none, none =>
    match a, b with
    | .text s, .text t => s = t
    | .none, .none => true
    | .array a _, .array b _ => a = b
    | .cellClass s, .cellClass t => s = t
    | .cellDescriptor s, .cellDescriptor t => s.shown = t.shown
    | _, _ => false
  | _, _ => false

def sameConstants : List (String × Value) → List (String × Value) → Bool
  | [], [] => true
  | (name, value) :: rest, (name', value') :: rest' =>
    name = name' && sameConstant value value' && sameConstants rest rest'
  | _, _ => false

def same (a b : TunedKey) : Bool :=
  a.signature = b.signature && a.source = b.source && sameConstants a.constants b.constants

/-- The key of a source, a signature and constants in any order. -/
def make (source signature : String) (constants : List (String × Value)) : TunedKey :=
  ⟨source, signature, constants.mergeSort fun a b => a.1 ≤ b.1⟩

/-- Constants that may be part of a key. -/
def check : List (String × Value) → Except Failure Unit
  | [] => .ok ()
  | (_, .list _) :: _ => .error (.unhashable "list")
  | (_, .table ..) :: _ => .error (.unhashable "numpy.ndarray")
  | _ :: rest => check rest

end TunedKey

namespace Engine

/-- The number of pipelines with constants that are kept. -/
def tunedLimit : Nat := 512

def tunedPipeline? (engine : Engine) (key : TunedKey) : Option Nat :=
  (engine.tunedPipelines.find? fun (other, _) => other.same key).map Prod.snd

/-- Makes a kept pipeline the most recently used one. -/
def touch (key : TunedKey) (engine : Engine) : Engine :=
  let (used, others) := engine.tunedPipelines.partition fun (other, _) => other.same key
  { engine with tunedPipelines := others ++ used }

/-- Keeps a new pipeline and drops the least recently used one if there are too many. -/
def keepTuned (key : TunedKey) (pipeline : Nat) (engine : Engine) : Engine :=
  let kept := engine.tunedPipelines ++ [(key, pipeline)]
  { engine with
    tunedPipelines := if tunedLimit < kept.length then kept.drop 1 else kept }

end Engine

namespace Action

/-- The layout for a list of modes, with its signature. -/
def createLayout (modes : List Mode) : Action (String × Nat) := do
  assertActive
  let signature := signatureOf modes
  match (← get).layouts.lookup signature with
  | some layout => return (signature, layout)
  | none =>
    let layout ←
      onDevice (Device.createLayout ("BindGroupLayout-" ++ signature) (entriesOf modes))
    modify fun engine => { engine with layouts := engine.layouts ++ [(signature, layout)] }
    return (signature, layout)

/-- The modes a caller gives. -/
def modesFrom (modes : Value) : Action (List Mode) := do
  assertActive
  ofExcept (do (← modes.members).mapM Mode.ofValue)

/-- The layout for modes given by a caller. -/
def createLayoutFor (modes : Value) : Action (String × Nat) := do
  createLayout (← modesFrom modes)

/-- Passes the compiler's messages on, up to the first error. -/
def review (source : String) : List (String × String) → Action Unit
  | [] => pure ()
  | (severity, text) :: rest => do
    if severity = "error" then throw (.compilation ("WGSL compilation failed: " ++ text) source)
    modify (Engine.note .warning ("WGSL " ++ severity ++ ": " ++ text))
    review source rest

/-- A new module, kept for its source. -/
def compileModule (source : String) : Action Nat := do
  match ← onDevice (Device.compile source) with
  | .error message => throw (.compilation ("WGSL compilation failed: " ++ message) source)
  | .ok (module, messages) =>
    review source messages
    modify fun engine => { engine with modules := engine.modules ++ [(source, module)] }
    return module

/-- The module for a source. -/
def createModule (source : String) : Action Nat := do
  assertActive
  match (← get).modules.lookup source with
  | some module => return module
  | none => compileModule source

/-- A new pipeline, not yet kept anywhere. -/
def buildPipeline (source : String) (layout : Nat) (constants : List (String × Value)) :
    Action Nat := do
  let module ← createModule source
  onDevice (Device.createPipeline layout module constants)

/-- The pipeline without constants for a source and a layout. -/
def plainPipeline (source signature : String) (layout : Nat) : Action Nat := do
  match (← get).pipelines.lookup (source, signature) with
  | some pipeline => return pipeline
  | none =>
    let pipeline ← buildPipeline source layout []
    modify fun engine =>
      { engine with pipelines := engine.pipelines ++ [((source, signature), pipeline)] }
    return pipeline

/-- The pipeline with constants for a source and a layout. -/
def tunedPipeline (source signature : String) (layout : Nat) (constants : List (String × Value)) :
    Action Nat := do
  ofExcept (TunedKey.check constants)
  let key := TunedKey.make source signature constants
  match (← get).tunedPipeline? key with
  | some pipeline =>
    modify (Engine.touch key)
    return pipeline
  | none =>
    let pipeline ← buildPipeline source layout constants
    modify (Engine.keepTuned key pipeline)
    return pipeline

/-- The pipeline for a source, a layout and constants. -/
def pipelineFor (source signature : String) (layout : Nat) (constants : List (String × Value)) :
    Action Nat :=
  if constants.isEmpty then plainPipeline source signature layout
  else tunedPipeline source signature layout constants

/-- The pipeline for a source, the modes of its bindings and its constants, with its layout. -/
def createPipeline (source : String) (modes : List Mode) (constants : List (String × Value)) :
    Action (Nat × Nat) := do
  let (signature, layout) ← createLayout modes
  return (← pipelineFor source signature layout constants, layout)

/-- The pipeline for modes given by a caller, with the signature of its layout. -/
def createPipelineFor (source : String) (modes : Value) (constants : List (String × Value)) :
    Action (Nat × String) := do
  let modes ← modesFrom modes
  let (pipeline, _) ← createPipeline source modes constants
  return (pipeline, signatureOf modes)

end Action

end ComputeArray
