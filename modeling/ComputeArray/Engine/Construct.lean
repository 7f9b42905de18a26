import ComputeArray.Element.Range
import ComputeArray.Engine.Access
import ComputeArray.Engine.Method
import ComputeArray.Signature

/-!
# Constructors

Arrays filled with a value, with evenly spaced values, or with the cells of a host table. Tables of
64-bit numbers and of truth values narrow to the element type of the same sort.
-/

set_option autoImplicit false

namespace ComputeArray

namespace ElementType

/-- The element type that holds the cells of a table. -/
def ofCellKind (kind : CellKind) : Except Failure ElementType :=
  if kind = .longSigned then .ok .i32
  else if kind = .longUnsigned then .ok .u32
  else
    match kind with
    | .float .double => .ok .f32
    | .signed 64 => .ok .i32
    | .boolean => .ok .i32
    | .unsigned 64 => .ok .u32
    | kind => ofValue (.cellDescriptor (.cells kind false))

end ElementType

namespace Value

/-- The leaf of a table as a single cell of the given kind. -/
def leafCell (kind : CellKind) (leaf : Value) : Value :=
  match leaf with
  | .table _ [] [cell] => cell.asCell kind
  | leaf => leaf.asCell kind

end Value

namespace Action

/-- An array with every element set to a value. -/
def full (value shape elementName : Value) : Action Nat := do
  let buffer ← newArray shape elementName .none
  setValue buffer value []
  return buffer

def rangeSignature : Signature :=
  ⟨"GPUBackend.arange", ["start"],
    [("stop", .none), ("step", .int 1), ("shape", .none), ("dtype", .text "f32")]⟩

/-- The elements of a range. Arrays among its ends are subtracted and divided as arrays, and then
the quotient is no number. -/
def rangeElements (element : ElementType) (start stop step : Value) : Action (List Nat) := do
  let described (buffer : Nat) : Action Value := return .array buffer (← array buffer).shown
  let computed (action : Action Nat) : Action Nat :=
    tryCatch action fun failure => throw (Range.failureOf failure)
  let quotient (distance : Value) : Action (List Nat) := do
    let _ ← computed (arithmetic "/" distance (Range.stepOf step))
    throw (.notReal (Value.array 0 "").typeName)
  if !(Value.arrays [start, stop]).isEmpty then
    quotient (← described (← computed (arithmetic "-" stop start)))
  else if !(Value.arrays [step]).isEmpty then
    let distance ← ofExcept (Range.distance start stop)
    quotient distance.scalar.toValue
  else ofExcept (Range.ofValues element start stop step)

/-- An array of evenly spaced values, for arguments given by position and by name. -/
def range (arguments : List Value) (named : List (String × Value)) : Action Nat := do
  let values ← ofExcept (rangeSignature.bind arguments named)
  let (start, stop) :=
    match values.getD 0 .none, values.getD 1 .none with
    | stop, .none => (Value.int 0, stop)
    | start, stop => (start, stop)
  let step := values.getD 2 .none
  let element ← ofExcept (ElementType.ofValue (values.getD 4 .none))
  let elements ← rangeElements element start stop step
  if elements.isEmpty then throw (.emptyRange start stop step)
  let shape :=
    match values.getD 3 .none with
    | .none => Value.int elements.length
    | shape => shape
  let buffer ← newArray shape (.text element.name) .none
  let array ← array buffer
  if (← ofExcept array.length) ≠ elements.length then
    throw (.cannotReshape elements.length array.shapeInts)
  setElements buffer elements
  return buffer

/-- An array with the elements of a table or a nested sequence. -/
def ofTable (value : Value) : Action Nat := do
  let (kind, shape, leaves) ← ofExcept value.asTable
  let named (element : ElementType) := Value.text element.name
  let elementName :=
    match ElementType.ofCellKind kind with
    | .ok element => named element
    | .error _ => .cellDescriptor (.cells kind false)
  let extents : List Nat := if shape.isEmpty then [1] else shape
  let buffer ← newArray (.list (extents.map fun extent => .int (extent : Nat))) elementName .none
  let element := (← array buffer).element
  let elements ← ofExcept (leaves.mapM fun leaf => element.castCell kind (leaf.leafCell kind))
  setElements buffer elements
  return buffer

/-- The constructor of a name, applied to arguments. -/
def construct? (name : String) (arguments : List Value) (named : List (String × Value)) :
    Option (Action Nat) :=
  let bound (required : List String) (optional : List (String × Value))
      (build : (Nat → Value) → Action Nat) : Option (Action Nat) := some do
    let signature : Signature := ⟨"GPUBackend." ++ name, required, optional⟩
    let values ← ofExcept (signature.bind arguments named)
    build fun position => values.getD position .none
  let layout := [("shape", Value.none), ("dtype", .text ElementType.f32.name)]
  match name with
  | "array" =>
    bound [] (layout ++ [("strides", .none)]) fun given => newArray (given 0) (given 1) (given 2)
  | "zeros" => bound [] layout fun given => newArray (given 0) (given 1) .none
  | "ones" => bound [] layout fun given => full (.int 1) (given 0) (given 1)
  | "full" => bound ["value"] layout fun given => full (given 0) (given 1) (given 2)
  | "arange" => some (range arguments named)
  | "from_numpy" => bound ["arr"] [] fun given => ofTable (given 0)
  | _ => none

/-- Calls a constructor or an operation by its name. -/
def callByName (name : String) (arguments : List Value) (out : Option Value) : Action Nat :=
  (construct? name arguments (namedOutput out)).getD (call name arguments out)

end Action

end ComputeArray
