import ComputeArray.Engine.Generator
import ComputeArray.Operation

/-!
# The catalogue

What the library offers, as data: the operations, the element types with their host cells, the
names it makes public, its limits, and the usages of its buffers.
-/

set_option autoImplicit false

namespace ComputeArray.Catalogue

/-- Element types with the name and the size of their host cells. -/
def elementTypes : List (String × String × Nat) :=
  ElementType.all.map fun element => (element.name, element.cells, element.size)

/-- The public names in order. -/
def exports : List String :=
  ["BackendOptions", "DTYPES", "DTypeError", "DeviceLostError", "DeviceState", "GPUArrayError",
    "GPUBackend", "NDArray", "OPERATIONS", "ShaderCompilationError", "ShapeError",
    "UnsupportedError", "Xoshiro128pp", "broadcast_shapes", "broadcast_strides", "get_backend",
    "promote_types", "request_backend"]

/-- Pending buffers, pipelines with constants, streams a pass and passes a submission. -/
def limits : List Nat :=
  [Engine.pendingLimit, Engine.tunedLimit, Generator.chunk, Generator.passLimit]

/-- Usages of array buffers, staging buffers and stride buffers. -/
def usages : List Nat := [Device.storageUsage, Device.stagingUsage, Device.stridesUsage]

end ComputeArray.Catalogue
