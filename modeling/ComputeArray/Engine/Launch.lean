import ComputeArray.Element.Cell
import ComputeArray.Element.Promotion
import ComputeArray.Engine.Storage
import ComputeArray.Engine.Submit
import ComputeArray.Kernel.Source
import ComputeArray.Operation

/-!
# Elementwise operations

An operation on arrays and scalars broadcasts the shapes of the arrays, promotes the element types,
and runs one kernel in one submission. Scalars become override constants. An output that is also an
input is written through a temporary array, which is copied into it after the pass.
-/

set_option autoImplicit false

namespace ComputeArray

namespace Value

/-- The arrays among values. -/
def arrays (values : List Value) : List Nat :=
  values.filterMap fun
    | .array buffer _ => some buffer
    | _ => Option.none

end Value

namespace Value

/-- Whether a value that is no device array has a shape. -/
def hasShape : Value → Bool
  | .table .. => true
  | .cellClass _ => true
  | .cellDescriptor _ => true
  | _ => false

/-- The failure to find a member in a value that is no device array. -/
def lacking (value : Value) (member : String) : Failure :=
  match value with
  | .cellClass name => .noClassAttribute ("numpy." ++ name) member
  | value => .noAttribute value.typeName member

end Value

/-- What a kernel is built from and bound to, as far as the operands are gone through. -/
structure OperandPlan where
  operands : List Kernel.Operand
  bindings : List (Resource × Mode)
  constants : List (String × Value)

namespace OperandPlan

def empty : OperandPlan := ⟨[], [], []⟩

/-- The constant a scalar becomes in an element type. -/
def constantOf (element : ElementType) (value : Value) : Except Failure Value :=
  if element.isFloat then
    match Scalar.ofValue? value with
    | some scalar => scalar.toDouble.map .float
    | none => .error (.notFloatable value.typeName)
  else value.scalarToInt.map .int

/-- Half precision constants are declared in single precision and converted in the kernel. -/
def scalarOperand (element : ElementType) : Kernel.Operand :=
  if element = .f16 then ⟨none, ElementType.f32.name, element.name⟩ else ⟨none, element.name, ""⟩

/-- The conversion from one element type to another, none if they are the same. -/
def conversion (source target : ElementType) : String :=
  if source = target then "" else target.name

/-- Adds an operand that is computed in the type `target`. -/
def add (engine : Engine) (plan : OperandPlan) (name : String) (value : Value)
    (target : ElementType) : Except Failure OperandPlan := do
  match value with
  | .array buffer _ =>
    let element := (engine.array buffer).element
    let operand : Kernel.Operand :=
      ⟨some plan.bindings.length, element.name, conversion element target⟩
    return { plan with
      operands := plan.operands ++ [operand]
      bindings := plan.bindings ++ [(.array buffer, .read)] }
  | value =>
    let constant ← constantOf target value
    return { plan with
      operands := plan.operands ++ [scalarOperand target]
      constants := plan.constants ++ [(name, constant)] }

end OperandPlan

namespace Launch

/-- Whether some array is not read at the number of the lane: it has strides of its own or another
shape than the output. -/
def isStrided (arrays : List ArrayState) (shape : List Int) : Bool :=
  arrays.any fun array => array.customStrides || array.shapeInts ≠ shape

/-- The operands as they are launched: those of a commutative operation are swapped unless an array
comes first. -/
def ordered (commutative : Bool) (operands : List Value) : List Value :=
  match commutative, operands with
  | true, .array buffer text :: rest => .array buffer text :: rest
  | true, operands => operands.reverse
  | false, operands => operands

/-- The slots of the stride buffers, which follow the slot of the output. -/
def strideSlots (outSlot : Nat) (helpers : List (String × Nat)) : Kernel.Elementwise.StrideSlots :=
  (List.range helpers.length).zip helpers |>.map fun (i, name, _) =>
    (name, some ((outSlot + 1 + i : Nat) : Int))

end Launch

namespace Action

/-- The type an operation on the operands is computed in. -/
def commonType (operands : List Value) : Action ElementType := do
  let engine ← get
  let elements := (Value.arrays operands).map fun buffer => (engine.array buffer).element
  if elements.isEmpty then throw .noArrayOperand
  let common ← ofExcept (Spelling.elements.resultType elements)
  let types ← operands.mapM fun
    | .array buffer _ => pure (engine.array buffer).element
    | value => ofExcept (Spelling.elements.scalarType value (some common))
  ofExcept (Spelling.elements.resultType types)

/-- The array a kernel writes, and the given output if it is also an input: then the kernel writes
a fresh array of the same type. -/
def output (out : Value) (shape : List Int) (element : ElementType) (inputs : List Nat) :
    Action (Nat × Option Nat) := do
  match out with
  | .none => return (← newContiguous element shape, none)
  | .array buffer _ =>
    let array ← array buffer
    if array.customStrides then throw .stridedOutput
    if array.shapeInts ≠ shape then throw (.outputShape array.shapeInts shape)
    if inputs.contains buffer then return (← newContiguous array.element shape, some buffer)
    return (buffer, none)
  | value => throw (value.lacking "custom_strides")

/-- A buffer that holds strides for a kernel. -/
def stridesBuffer (strides : List Int) : Action Nat := do
  let words ← ofExcept (strides.mapM ElementType.u32.storeInt)
  assertActive
  onDevice (Device.createFilledBuffer (.ofWords words) Device.stridesUsage)

/-- The buffer with the strides an operand is read with; a scalar has none. -/
def operandStrides (engine : Engine) (shape : List Int) :
    String × Value → Action (Option (String × Nat))
  | (name, .array buffer _) => do
    let array := engine.array buffer
    let strides ← ofExcept (Layout.broadcast array.shapeInts array.strideInts shape)
    return some (name, ← stridesBuffer strides)
  | _ => return none

/-- The stride buffers of the arrays among the operands and of the output, by operand. -/
def stridesBuffers (names : List String) (operands : List Value) (shape : List Int) :
    Action (List (String × Nat)) := do
  let engine ← get
  let inputs ← (names.zip operands).filterMapM (operandStrides engine shape)
  return inputs ++ [("out", ← stridesBuffer (Layout.contiguous shape))]

/-- The stride buffers of a strided pass; a direct one needs none. -/
def stridesBuffersIf (strided : Bool) (names : List String) (operands : List Value)
    (shape : List Int) : Action (List (String × Nat)) :=
  if strided then stridesBuffers names operands shape else pure []

/-- Gives up a temporary output and answers the array it has been copied into. -/
def settleOutput (target : Nat) (given : Option Nat) : Action Nat := do
  match given with
  | none => return target
  | some out =>
    modify (Engine.release target)
    return out

/-- The pass of an operation into the array `target`, with the stride buffers it reads if it is
strided. -/
def elementwisePass (operation : Operation) (operands : List Value) (targets : List ElementType)
    (result : ElementType) (shape : List Int) (strided : Bool) (target : Nat) :
    Action (Dispatch × List Nat) := do
  let names := operation.template.operands
  let engine ← get
  let plan ← ofExcept ((names.zip (operands.zip targets)).foldlM
    (fun plan (name, value, element) => plan.add engine name value element) OperandPlan.empty)
  let targetArray ← array target
  let outSlot := plan.bindings.length
  let outOperand : Kernel.Operand :=
    ⟨some outSlot, targetArray.element.name, OperandPlan.conversion result targetArray.element⟩
  let helpers ← stridesBuffersIf strided names operands shape
  let kernel ← ofExcept (operation.kernel engine.workgroupSize plan.operands outOperand
    (if strided then some (Launch.strideSlots outSlot helpers) else none))
  let lanes ← ofExcept targetArray.length
  let buffers := helpers.map Prod.snd
  let bindings := plan.bindings ++ [(.array target, .write)]
    ++ buffers.map fun buffer => (Resource.plain buffer, Mode.read)
  return (⟨kernel.source, bindings, lanes, plan.constants⟩, buffers)

/-- Runs an operation whose operands are computed in the given types, with a result of type
`result`. -/
def launch (operation : Operation) (operands : List Value) (targets : List ElementType)
    (result : ElementType) (out : Value) : Action Nat := do
  let inputs := Value.arrays operands
  let arrays := inputs.map (← get).array
  let shape ← ofExcept (Shape.broadcast (arrays.map ArrayState.shapeInts))
  let (target, given) ← output out shape result inputs
  let (pass, helpers) ←
    elementwisePass operation operands targets result shape (Launch.isStrided arrays shape)
      target
  let _ ← submit [pass] helpers (given.toList.map fun out => (target, out))
  settleOutput target given

/-- Runs an elementwise operation of the table. -/
def elementwise (tag : String) (operands : List Value) (out : Value) : Action Nat := do
  match Operation.find? tag with
  | none => throw (.unknownOperation tag)
  | some operation =>
    if operation.template.isFold then throw (.isReduction tag)
    if operands.length ≠ operation.arity then
      throw (.operandCount tag operation.arity operands.length)
    let operands := Launch.ordered operation.commutative operands
    let common ← commonType operands
    let element := if operation.floatOnly ∧ !common.isFloat then .f32 else common
    launch operation operands (operands.map fun _ => element) element out

/-- The elements of `yes` where the condition is not zero, and of `no` elsewhere. -/
def choose (condition yes no out : Value) : Action Nat := do
  match condition with
  | .array buffer _ =>
    let element ← commonType [yes, no]
    launch .choice [condition, yes, no] [(← array buffer).element, element, element] element out
  | _ => throw .conditionNotArray

end Action

end ComputeArray
