import ComputeArray.Element.Memory
import ComputeArray.Engine.Basic
import ComputeArray.Layout

/-!
# Storage of arrays

An array gets a zero-filled host copy and a device buffer of the same size. Devices move whole words
of four bytes, so an odd number of half precision elements is padded.
-/

set_option autoImplicit false

namespace ComputeArray

/-- The number of bytes that fills whole words. -/
def wholeWords (bytes : Int) : Int := (bytes + 3) / 4 * 4

/-- The bytes of storage for a number of elements. A negative number passes if it is less than a
word. -/
def storageBytes (element : ElementType) (count : Int) : Except Failure Nat := do
  let bytes := wholeWords (count * element.size)
  if bytes < 0 then throw .negativeSize
  element.hostBytes [bytes.toNat / element.size]

namespace ArrayState

def shapeInts (array : ArrayState) : List Int := array.shape.map Int.ofNat

def strideInts (array : ArrayState) : List Int := array.strides.map Int.ofNat

/-- The number of elements in host memory, padding left out. -/
def size (array : ArrayState) : Nat := array.count.toNat

/-- The number of logical elements. -/
def length (array : ArrayState) : Except Failure Int := Layout.contiguousCount array.shapeInts

/-- The bits of the host elements, padding left out. -/
def hostElements (array : ArrayState) : List Nat :=
  array.storage.elements array.element.size array.size

def shown (array : ArrayState) : String :=
  let flags := (if array.hostDirty then ["host_dirty"] else [])
    ++ (if array.deviceDirty then ["device_dirty"] else [])
  "NDArray(shape=" ++ intList array.shapeInts ++ ", dtype=" ++ array.element.name
    ++ ", strides=" ++ intList array.strideInts ++ String.join (flags.map (", " ++ ·)) ++ ")"

end ArrayState

namespace Action

/-- A zero-filled array with the given layout. -/
def allocate (element : ElementType) (shape strides : List Nat) (customStrides : Bool)
    (count : Int) : Action Nat := do
  let size ← ofExcept (storageBytes element count)
  assertActive
  let buffer ← onDevice (Device.createBuffer size Device.storageUsage)
  modify (Engine.addArray buffer
    { element, shape, strides, customStrides
      count
      storage := .zeros size
      hostDirty := false
      deviceDirty := false
      version := 0
      loading := .idle
      released := false })
  return buffer

/-- Refuses half precision on a device without it. -/
def checkElement (element : ElementType) : Action Unit := do
  if element = .f16 ∧ !(← get).hasHalf then throw .halfUnavailable

/-- An array as a caller describes it. -/
def newArray (shape elementName strides : Value) : Action Nat := do
  assertActive
  let element ← ofExcept (ElementType.ofValue elementName)
  checkElement element
  let shape ← ofExcept (Shape.ofValue shape)
  let extents := shape.map Int.ofNat
  match strides with
  | .none =>
    let count ← ofExcept (Layout.contiguousCount extents)
    allocate element shape ((Layout.contiguous extents).map Int.toNat) false count
  | strides =>
    let strides ← ofExcept (Layout.stridesOfValue strides shape.length)
    allocate element shape strides true (Layout.spannedCount extents (strides.map Int.ofNat))

/-- A contiguous array of a known element type and shape. -/
def newContiguous (element : ElementType) (shape : List Int) : Action Nat :=
  newArray (.list (shape.map .int)) (.text element.name) .none

end Action

end ComputeArray
