import ComputeArray.Kernel.Operand

/-!
# Folding kernels

One pass of a reduction: lane `i` below `lanes` combines the elements `i`, `i + lanes`, … below `n`.
Both bounds are override constants of the pass.
-/

set_option autoImplicit false

namespace ComputeArray.Kernel.Fold

def kernel (size : Int) (argument out : Operand) (combine : Expression → Expression → Expression) :
    Kernel :=
  let element (position : Expression) : Expression :=
    .convert argument.conversion (.index "arg" position)
  let accumulator := Expression.name "acc"
  let j := Expression.name "j"
  let lanes := Expression.name "lanes"
  ⟨[preamble [argument, out], argument.item "arg" .read, out.item "out" .readWrite, .blank,
    .parameter "n" "u32", .parameter "lanes" "u32", .blank,
    .lanes size
      [laneNumber size,
        .stop (.binary ">=" lane lanes),
        .blank,
        .declare "acc" none (element lane),
        .loop "j" (.binary "+" lane lanes) (.binary "<" j (.name "n")) (.binary "+" j lanes)
          [.assign accumulator (combine accumulator (element j))],
        .assign (.index "out" lane) (.convert out.conversion accumulator)]]⟩

/-- Elements are combined by an operator. -/
def ofOperator (symbol : String) (size : Int) (argument out : Operand) : Kernel :=
  kernel size argument out (.binary symbol)

/-- Elements are combined by a function of two arguments. -/
def ofFunction (function : String) (size : Int) (argument out : Operand) : Kernel :=
  kernel size argument out fun accumulated element => .call function [accumulated, element]

end ComputeArray.Kernel.Fold
