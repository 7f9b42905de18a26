import ComputeArray.Element.Cell
import ComputeArray.Engine.Transfer

/-!
# Access to elements

Elements are read and written in the host copy. Writing loads the device buffer first if it has
news, then converts all values before it stores the first.
-/

set_option autoImplicit false

namespace ComputeArray

namespace ArrayState

/-- The offset of an index, checked against the host elements. -/
def offset (array : ArrayState) (index : List Value) : Except Failure Nat := do
  let offset ← Layout.offset index array.shape array.strides
  if !Word.holdsUnsigned 64 offset then throw .notAPosition
  if !Word.holdsSigned 64 offset then throw .beyondMachineInteger
  if array.size ≤ offset then throw (.indexOutOfBounds (toString offset) 0 array.size)
  return offset.toNat

def elementAt (array : ArrayState) (index : List Value) : Except Failure Value := do
  let offset ← array.offset index
  return array.element.load (array.storage.element array.element.size offset)

def store (array : ArrayState) (cells : List (Nat × Nat)) : ArrayState :=
  { array with
    storage := array.storage.putElements array.element.size cells
    hostDirty := true }

/-- Whether the logical elements can be laid out over the host elements: a table has a limited
number of axes, and machine words count its extents, its bytes and the bytes of its strides. -/
def checkView (array : ArrayState) : Except Failure Unit := do
  let isWord (n : Nat) : Bool := Word.holdsSigned 64 n
  if axisLimit < array.shape.length then throw (.tooManyAxes array.shape.length)
  if !array.shape.all isWord then throw .beyondMachineInteger
  if !isWord (array.element.size * Shape.volume array.shape) then throw .sizeTooLarge
  if !array.strides.all fun stride => isWord (stride * array.element.size) then
    throw .beyondMachineInteger

/-- Whether a table with as many cells as there are values can take the shape. -/
def checkReshape (array : ArrayState) (values : Nat) : Except Failure Unit := do
  if axisLimit < array.shape.length then throw (.tooManyAxesToReshape array.shape.length)
  if array.shape.any fun extent => !Word.holdsSigned 64 extent then throw .dimensionTooLarge
  if values ≠ Shape.volume array.shape then throw (.cannotReshapeTable values array.shape)

/-- The logical elements in row-major order, in memory of their own. -/
def viewElements (array : ArrayState) : Except Failure (List Nat) := do
  array.checkView
  array.element.grant array.shape (array.element.size * Shape.volume array.shape)
  return (Layout.offsets array.shape array.strides).map
    (array.storage.element array.element.size)

/-- The array with one element replaced. -/
def setAt (array : ArrayState) (index : List Value) (value : Value) :
    Except Failure ArrayState := do
  let offset ← array.offset index
  let bits ← array.element.store value
  return array.store [(offset, bits)]

/-- The array with every host element replaced by one value. -/
def fill (array : ArrayState) (value : Value) : Except Failure ArrayState := do
  let bits ← array.element.store value
  return { array with
    storage := array.storage.fill array.element.size bits array.size
    hostDirty := true }

/-- Whether the values can replace all logical elements. -/
def checkValues (array : ArrayState) (values : List Nat) : Except Failure Unit := do
  let length ← array.length
  if (values.length : Int) ≠ length then throw (.countMismatch values.length length)
  array.checkReshape values.length
  array.checkView

/-- The offsets of values in logical order with the values. They go along the axes, those with
smaller strides first. -/
def placed (array : ArrayState) (values : List Nat) : List (Nat × Nat) :=
  let places := (Layout.contiguous array.shapeInts).map Int.toNat
  let values := values.toArray
  (Layout.offsetPairs array.shape array.strides places).map
    fun (offset, place) => (offset, values.getD place 0)

/-- The array with its logical elements replaced; of elements at one offset the last one stays. -/
def setAll (array : ArrayState) (values : List Nat) : Except Failure ArrayState := do
  array.checkValues values
  return array.store (array.placed values)

/-- The number of axes a value is taken to have. -/
def axesOf (value : Value) : Except Failure Nat :=
  match value with
  | .array .. => .ok 1
  | value => value.nestedShape.map List.length

def setValue (array : ArrayState) (index : List Value) (value : Value) :
    Except Failure ArrayState := do
  if !index.isEmpty then array.setAt index value
  else if (← axesOf value) = 0 then array.fill value
  else array.setAll (← array.element.storeAll value)

/-- The array with the same elements in another shape. -/
def reshape (array : ArrayState) (shape : Value) : Except Failure ArrayState := do
  if array.customStrides then throw .stridedReshape
  let shape ← Shape.ofValue shape
  let extents := shape.map Int.ofNat
  let count ← Layout.contiguousCount extents
  let length ← array.length
  if count ≠ length then throw (.cannotReshape length extents)
  return { array with shape, strides := (Layout.contiguous extents).map Int.toNat }

end ArrayState

namespace Action

/-- Replaces an array by what a fallible computation makes of it. -/
def updateArray (buffer : Nat) (update : ArrayState → Except Failure ArrayState) :
    Action Unit := do
  let array ← ofExcept (update (← array buffer))
  changeArray buffer fun _ => array

/-- Stores a value at an index, or in the whole array if the index is empty. -/
def setValue (buffer : Nat) (value : Value) (index : List Value) : Action Unit := do
  if (← array buffer).deviceDirty then loadBlocking buffer
  updateArray buffer (·.setValue index value)

/-- Stores the bits of all logical elements. -/
def setElements (buffer : Nat) (values : List Nat) : Action Unit := do
  if (← array buffer).deviceDirty then loadBlocking buffer
  updateArray buffer (·.setAll values)

/-- The element at an index of the host copy as it is. -/
def hostElement (buffer : Nat) (index : List Value) : Action Value := do
  ofExcept ((← array buffer).elementAt index)

def getElement (buffer : Nat) (index : List Value) : Action Value := do
  load buffer
  hostElement buffer index

/-- The logical elements after a load. -/
def readElements (buffer : Nat) : Action (List Nat) := do
  loadBlocking buffer
  ofExcept (← array buffer).viewElements

/-- Changes the shape; a single list stands for the extents it holds. -/
def reshape (buffer : Nat) (extents : List Value) : Action Unit :=
  let shape :=
    match extents with
    | [.list items] => .list items
    | extents => .list extents
  updateArray buffer (·.reshape shape)

end Action

end ComputeArray
