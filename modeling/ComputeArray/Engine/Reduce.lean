import ComputeArray.Engine.Launch

/-!
# Reductions

A reduction folds all elements of an array into one by passes that each about halve the number of
partial results, within one workgroup. All passes go out in one submission.
-/

set_option autoImplicit false

namespace ComputeArray

namespace Reduction

/-- The lanes of a pass over `n` elements. -/
def lanes (workgroupSize n : Int) : Int := min workgroupSize (max 1 (n / 2))

theorem lanes_lt {workgroupSize n : Int} (several : 1 < lanes workgroupSize n) :
    (lanes workgroupSize n).toNat < n.toNat := by
  unfold lanes at *
  omega

/-- The passes over `n` elements, each with the number of elements it reads and of its lanes. -/
def passes (workgroupSize n : Int) : List (Int × Int) :=
  if _ : 1 < lanes workgroupSize n then
    (n, lanes workgroupSize n) :: passes workgroupSize (lanes workgroupSize n)
  else [(n, lanes workgroupSize n)]
termination_by n.toNat
decreasing_by exact lanes_lt ‹_›

end Reduction

namespace Action

/-- The array a pass stores into: the target if it has one lane, else a fresh one. -/
def foldDestination (element : ElementType) (target : Nat) (lanes : Int) : Action Nat :=
  if lanes = 1 then pure target else newContiguous element [lanes]

/-- The pass over `n` elements of one array into another. -/
def foldDispatch (engine : Engine) (operation : Operation) (element : ElementType)
    (source destination : Nat) (n lanes : Int) : Dispatch :=
  let stored := (engine.array destination).element
  let kernel := operation.foldKernel engine.workgroupSize
    ⟨some 0, (engine.array source).element.name, ""⟩
    ⟨some 1, stored.name, OperandPlan.conversion element stored⟩
  ⟨kernel.source, [(.array source, .read), (.array destination, .write)], lanes,
    [("n", .int n), ("lanes", .int lanes)]⟩

/-- The dispatches of the passes, from one array to the next and the last into the target, with the
arrays in between. -/
def foldDispatches (operation : Operation) (element : ElementType) (target : Nat) :
    Nat → List (Int × Int) → Action (List Dispatch × List Nat)
  | _, [] => return ([], [])
  | source, (n, lanes) :: rest => do
    let destination ← foldDestination element target lanes
    let dispatch := foldDispatch (← get) operation element source destination n lanes
    let (dispatches, between) ← foldDispatches operation element target destination rest
    return (dispatch :: dispatches, (if lanes = 1 then [] else [destination]) ++ between)

/-- The shape of the output: that of the given one, or a single element. -/
def foldShape (out : Value) : Action (List Int) := do
  match out with
  | .none => return [1]
  | .array buffer _ => return (← array buffer).shapeInts
  | value => throw (value.lacking (if value.hasShape then "custom_strides" else "shape"))

/-- Reduces all elements of an array to an array of one element. -/
def reduce (tag : String) (argument out : Value) : Action Nat := do
  match Operation.find? tag with
  | none => throw (.missingKey tag)
  | some operation =>
    if !operation.template.isFold then throw (.notReduction tag)
    match argument with
    | .array source _ =>
      let array ← array source
      if array.customStrides then throw .stridedReduction
      let (target, given) ← output out (← foldShape out) array.element [source]
      let targetArray ← Action.array target
      if (← ofExcept targetArray.length) ≠ 1 then
        throw (.reductionOutput targetArray.shapeInts)
      let n ← ofExcept array.length
      let (dispatches, between) ← foldDispatches operation array.element target source
        (Reduction.passes (← get).workgroupSize n)
      let _ ← submit dispatches [] (given.toList.map fun out => (target, out))
      modify fun engine => between.foldl (fun engine buffer => engine.release buffer) engine
      settleOutput target given
    | value => throw (value.lacking "custom_strides")

end Action

end ComputeArray
