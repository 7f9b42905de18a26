import ComputeArray.Kernel.Elementwise
import ComputeArray.Kernel.Fold

/-!
# Operations

The table of the operations an engine offers: the form of the kernel, the operator or function it
applies, and how it treats its operands. The choice between two operands stands outside the table.
-/

set_option autoImplicit false

namespace ComputeArray

/-- The forms of kernels. -/
inductive Template where
  | operator
  | unary
  | binary
  | choice
  | foldOperator
  | foldFunction
  deriving DecidableEq

structure Operation where
  template : Template
  symbol : String
  arity : Nat
  /-- Operands may be swapped without changing the result. -/
  commutative : Bool
  /-- Integer operands are computed in single precision. -/
  floatOnly : Bool

namespace Template

def name : Template → String
  | .operator => "operator"
  | .unary => "func1"
  | .binary => "func2"
  | .choice => "where"
  | .foldOperator => "reduce_op"
  | .foldFunction => "reduce_func"

/-- The names of the operands, in the order they are given. -/
def operands : Template → List String
  | .operator => ["lhs", "rhs"]
  | .unary => ["arg"]
  | .binary => ["arg0", "arg1"]
  | .choice => ["cond", "x", "y"]
  | .foldOperator => ["arg"]
  | .foldFunction => ["arg"]

def isFold : Template → Bool
  | .foldOperator => true
  | .foldFunction => true
  | _ => false

end Template

namespace Operation

def operator (symbol : String) (commutative : Bool) : Operation :=
  ⟨.operator, symbol, 2, commutative, false⟩

/-- A function computed in floating point only. -/
def math (symbol : String) : Operation := ⟨.unary, symbol, 1, false, true⟩

def mathOfTwo (symbol : String) : Operation := ⟨.binary, symbol, 2, false, true⟩

def extremum (symbol : String) : Operation := ⟨.binary, symbol, 2, true, false⟩

def fold (template : Template) (symbol : String) : Operation := ⟨template, symbol, 1, true, false⟩

/-- The operations by name. -/
def table : List (String × Operation) :=
  [("add", operator "+" true),
    ("sub", operator "-" false),
    ("mul", operator "*" true),
    ("div", operator "/" false),
    ("abs", ⟨.unary, "abs", 1, false, false⟩),
    ("acos", math "acos"),
    ("acosh", math "acosh"),
    ("asin", math "asin"),
    ("asinh", math "asinh"),
    ("atan", math "atan"),
    ("atanh", math "atanh"),
    ("ceil", math "ceil"),
    ("cos", math "cos"),
    ("cosh", math "cosh"),
    ("degrees", math "degrees"),
    ("exp", math "exp"),
    ("exp2", math "exp2"),
    ("floor", math "floor"),
    ("fract", math "fract"),
    ("inverse_sqrt", math "inverseSqrt"),
    ("log", math "log"),
    ("log2", math "log2"),
    ("radians", math "radians"),
    ("round", math "round"),
    ("sign", math "sign"),
    ("sin", math "sin"),
    ("sinh", math "sinh"),
    ("sqrt", math "sqrt"),
    ("tan", math "tan"),
    ("tanh", math "tanh"),
    ("trunc", math "trunc"),
    ("max", extremum "max"),
    ("min", extremum "min"),
    ("pow", mathOfTwo "pow"),
    ("atan2", mathOfTwo "atan2"),
    ("sum", fold .foldOperator "+"),
    ("prod", fold .foldOperator "*"),
    ("amin", fold .foldFunction "min"),
    ("amax", fold .foldFunction "max")]

def find? (tag : String) : Option Operation := table.lookup tag

/-- The choice between two operands by a third. -/
def choice : Operation := ⟨.choice, "select", 3, false, false⟩

/-- The kernel of an elementwise operation on its operands. -/
def kernel (operation : Operation) (size : Int) (operands : List Kernel.Operand)
    (out : Kernel.Operand) (strides : Option Kernel.Elementwise.StrideSlots) :
    Except Failure Kernel :=
  match operation.template, operands with
  | .operator, [left, right] =>
    Kernel.Elementwise.ofOperator operation.symbol size left right out strides
  | .unary, [argument] => Kernel.Elementwise.ofUnary operation.symbol size argument out strides
  | .binary, [first, second] =>
    Kernel.Elementwise.ofBinary operation.symbol size first second out strides
  | .choice, [condition, yes, no] =>
    Kernel.Elementwise.ofChoice size condition yes no out strides
  | _, operands =>
    Kernel.Elementwise.kernel size (operation.template.operands.zip operands) out
      (.call operation.symbol) strides

/-- The kernel of one pass of a reduction. -/
def foldKernel (operation : Operation) (size : Int) (argument out : Kernel.Operand) : Kernel :=
  match operation.template with
  | .foldOperator => Kernel.Fold.ofOperator operation.symbol size argument out
  | _ => Kernel.Fold.ofFunction operation.symbol size argument out

end Operation

end ComputeArray
