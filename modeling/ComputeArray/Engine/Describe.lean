import ComputeArray.Engine.Storage

/-!
# Descriptions

What callers can ask of an array, and of an engine as a whole, without changing it.
-/

set_option autoImplicit false

namespace ComputeArray

structure ArrayDescription where
  buffer : Nat
  element : ElementType
  shape : List Nat
  strides : List Nat
  customStrides : Bool
  /-- The number of host elements. -/
  size : Int
  /-- The number of logical elements. -/
  length : Int
  /-- The bytes of the device buffer. -/
  bytes : Nat
  released : Bool
  text : String

structure EngineDescription where
  text : String
  state : String
  lost : Option LossNotice
  workgroupSize : Int
  maxWorkgroups : Int
  hasHalf : Bool

/-- How many entries the caches hold, and the signatures of the layouts in order. -/
structure CacheDescription where
  layouts : List String
  modules : Nat
  pipelines : Nat
  tunedPipelines : Nat

namespace Engine

def describeArray (engine : Engine) (buffer : Nat) : Except Failure ArrayDescription := do
  let array := engine.array buffer
  return {
    buffer
    element := array.element
    shape := array.shape
    strides := array.strides
    customStrides := array.customStrides
    size := array.count
    length := ← array.length
    bytes := engine.device.sizeOf buffer
    released := array.released
    text := array.shown }

def describe (engine : Engine) : EngineDescription :=
  ⟨engine.shown, engine.stateName, engine.lost, engine.workgroupSize, engine.maxWorkgroups,
    engine.hasHalf⟩

def describeCaches (engine : Engine) : CacheDescription :=
  ⟨(engine.layouts.map Prod.fst).mergeSort (· ≤ ·), engine.modules.length,
    engine.pipelines.length, engine.tunedPipelines.length⟩

end Engine

end ComputeArray
