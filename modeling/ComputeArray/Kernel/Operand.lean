import ComputeArray.Kernel.Basic

/-!
# Operands of kernels

An operand is an array bound to a slot, or a scalar given as an override constant when the pipeline
is made. It may name a type its elements are converted to when read or written.
-/

set_option autoImplicit false

namespace ComputeArray.Kernel

structure Operand where
  slot : Option Int
  type : String
  conversion : String

namespace Operand

def isScalar (operand : Operand) : Bool := operand.slot.isNone

/-- The declaration of an operand. -/
def item (name : String) (operand : Operand) (access : Access) : Item :=
  match operand.slot with
  | none => .parameter name operand.type
  | some slot => .array (some slot) access name operand.type

/-- The converted value of an operand at a position. -/
def value (name : String) (operand : Operand) (position : Expression) : Expression :=
  .convert operand.conversion (if operand.isScalar then .name name else .index name position)

end Operand

/-- The line that admits half precision, if one of the operands has it. -/
def preamble (operands : List Operand) : Item :=
  if operands.any (·.type = "f16") then .halfPrecision else .blank

def lane : Expression := .name "i"

/-- The number of a lane from the two-dimensional number of its invocation. -/
def laneNumber (size : Int) : Statement :=
  .define "i" (some "u32") (.binary "+" (.member (.name "id") "x")
    (.binary "*" (.binary "*" (.member (.name "id") "y") (.member (.name "groups") "x"))
      (.word size)))

/-- The condition that a lane lies beyond the end of an array. -/
def beyond (array : String) : Expression := .binary ">=" lane (.arrayLength array)

end ComputeArray.Kernel
