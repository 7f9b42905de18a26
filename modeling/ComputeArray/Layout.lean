import ComputeArray.Shape

/-!
# Layouts

Strides say how many elements apart neighbours along an axis lie. This module holds the contiguous
row-major strides, the number of elements a layout spans, the strides that read an array as if it
had a larger shape, and the flat offset of an index.
-/

set_option autoImplicit false

namespace ComputeArray

namespace Layout

/-- Row-major strides, and the product of all extents beside them. -/
def contiguousFrom : List Int → List Int × Int
  | [] => ([], 1)
  | extent :: rest =>
    let (strides, step) := contiguousFrom rest
    (step :: strides, step * extent)

/-- The strides of a contiguous array: each axis steps over all elements of the later ones. -/
def contiguous (shape : List Int) : List Int := (contiguousFrom shape).1

/-- The strides a value gives for an array with the given number of axes. -/
def stridesOfValue (value : Value) (axes : Nat) : Except Failure (List Nat) := do
  let strides ← value.toIntList
  if strides.length ≠ axes then throw (.strideCount strides.length axes)
  if strides.any (· < 0) then throw (.negativeStrides strides)
  return strides.map Int.toNat

/-- The integer a 64-bit two's complement word stands for. -/
def wrapWord (n : Int) : Int := Word.wrapSigned 64 n

/-- The machine word of an extent. Extents that no 64-bit word holds are refused; when some need
the sign bit and others do not, all go through double precision, where those beyond the signed range
become the least word. -/
def extentWords (shape : List Int) : Except Failure (List Int) := do
  if shape.any fun extent => !Word.holdsSigned 64 extent && !Word.holdsUnsigned 64 extent then
    throw .beyondMachineInteger
  let large (extent : Int) : Bool := !Word.holdsSigned 64 extent
  if shape.any large ∧ !shape.all large then
    return shape.map fun extent =>
      match (Double.ofDatum (.ofInt extent)).datum.value? with
      | some value => if Word.holdsSigned 64 value.num then value.num else Word.least 64
      | none => Word.least 64
  else return shape.map wrapWord

/-- The product of the extents in wrapping 64-bit arithmetic. -/
def contiguousCount (shape : List Int) : Except Failure Int := do
  return (← extentWords shape).foldl (fun product word => wrapWord (product * word)) 1

/-- One more than the largest offset the strides reach. -/
def spannedCount (shape strides : List Int) : Int :=
  ((shape.zip strides).map fun (extent, stride) => (extent - 1) * stride).foldl (· + ·) 0 + 1

/-- The number of host elements behind an array. -/
def elementCount (shape : List Int) (strides : Option (List Int)) : Except Failure Int :=
  match strides with
  | none => contiguousCount shape
  | some strides => .ok (spannedCount shape strides)

/-- The strides that repeat an array along every axis on which `target` is longer: such axes get
stride zero. The shapes have equally many axes here; `axis` counts those already done. -/
def stretch (shape target : List Int) (axis : Nat) :
    List Int → List Int → List Int → Except Failure (List Int)
  | extent :: extents, wanted :: rest, strides => do
    match strides with
    | [] =>
      if extent = wanted then stretch shape target (axis + 1) extents rest []
      else if extent ≠ 1 then throw (.cannotBroadcastAt shape target axis)
      else throw .strideAssignment
    | stride :: strides =>
      if extent = wanted then
        return stride :: (← stretch shape target (axis + 1) extents rest strides)
      else if extent ≠ 1 then throw (.cannotBroadcastAt shape target axis)
      else return 0 :: (← stretch shape target (axis + 1) extents rest strides)
  | _, _, strides => return strides

/-- The strides with which an array of the given shape and strides is read as `target`. -/
def broadcast (shape strides target : List Int) : Except Failure (List Int) :=
  if target.length < shape.length then .error (.cannotBroadcast shape target)
  else
    let missing := target.length - shape.length
    let padded := List.replicate missing 1 ++ shape
    stretch padded target 0 padded target (List.replicate missing 0 ++ strides)

/-- The offset of an index, each component counted from the end if negative. -/
def offsetFrom (axis : Nat) (offset : Int) :
    List Value → List Nat → List Nat → Except Failure Int
  | component :: index, extent :: extents, stride :: strides => do
    let i ← component.toIndex
    let i := if i < 0 then i + extent else i
    if 0 ≤ i ∧ i < extent then offsetFrom (axis + 1) (offset + i * stride) index extents strides
    else throw (.indexOutOfBounds component.inSentence axis extent)
  | _, _, _ => return offset

/-- The offset of a full index. -/
def offset (index : List Value) (shape strides : List Nat) : Except Failure Int := do
  if shape.length < index.length then throw (.tooManyIndices index.length shape.length)
  if index.length < shape.length then throw (.partialIndex index.length shape.length)
  offsetFrom 0 0 index shape strides

/-- The offsets of all elements in row-major order of their indices. -/
def offsets : List Nat → List Nat → List Nat
  | extent :: extents, stride :: strides =>
    (List.range extent).flatMap fun i => (offsets extents strides).map (i * stride + ·)
  | _, _ => [0]

/-- An axis as it is gone through in two layouts of the same shape. -/
structure Axis where
  extent : Nat
  stride : Nat
  other : Nat

/-- The axes of a layout beside another one. -/
def axes : List Nat → List Nat → List Nat → List Axis
  | extent :: extents, stride :: strides, other :: others =>
    ⟨extent, stride, other⟩ :: axes extents strides others
  | _, _, _ => []

/-- The offsets in a layout with the offsets of the same elements in another one, the axes with
smaller strides in the first layout being gone through faster. -/
def offsetPairs (shape strides others : List Nat) : List (Nat × Nat) :=
  let sorted := (axes shape strides others).mergeSort fun a b => b.stride ≤ a.stride
  let extents := sorted.map Axis.extent
  (offsets extents (sorted.map Axis.stride)).zip (offsets extents (sorted.map Axis.other))

end Layout

end ComputeArray
