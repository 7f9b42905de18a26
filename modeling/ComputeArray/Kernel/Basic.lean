/-!
# Compute kernels

The abstract form of the kernels the engine compiles: expressions, statements and module items of
the shading language, as far as the kernels need them. Expressions carry their parentheses as
`group`, so a tree is written without any rule of precedence. Blank lines are part of the form.
-/

set_option autoImplicit false

namespace ComputeArray.Kernel

inductive Expression where
  | name (name : String)
  /-- An unsigned word in decimal digits. -/
  | word (n : Int)
  /-- An unsigned word in at least `width` hexadecimal digits. -/
  | hexWord (width n : Nat)
  /-- A number of no fixed type, as it is written. -/
  | literal (text : String)
  | binary (symbol : String) (left right : Expression)
  | group (inner : Expression)
  | call (function : String) (arguments : List Expression)
  | index (array : String) (position : Expression)
  | member (whole : Expression) (field : String)
  | pointer (array : String)
  deriving Inhabited

namespace Expression

/-- The number of elements of a bound array. -/
def arrayLength (array : String) : Expression := call "arrayLength" [pointer array]

/-- The expression converted to a type; without a type it stays as it is. -/
def convert (conversion : String) (inner : Expression) : Expression :=
  if conversion = "" then group inner else call conversion [inner]

end Expression

inductive Statement where
  | blank
  | define (name : String) (type : Option String) (value : Expression)
  | declare (name : String) (type : Option String) (value : Expression)
  | assign (target value : Expression)
  /-- The target combined with the value by an operator. -/
  | update (symbol : String) (target value : Expression)
  /-- A value computed for its effects alone. -/
  | discard (value : Expression)
  /-- Ends the invocation if the condition holds. -/
  | stop (condition : Expression)
  | branch (condition : Expression) (body : List Statement)
  /-- A loop over a word that starts at `first` and becomes `next` after each round. -/
  | loop (counter : String) (first condition next : Expression) (body : List Statement)
  | run (call : Expression)
  | result (value : Expression)
  deriving Inhabited

inductive Access where
  | read
  | readWrite
  deriving DecidableEq

structure Function where
  name : String
  parameters : List (String × String)
  result : Option String
  body : List Statement

inductive Item where
  | blank
  /-- Admits half precision floats. -/
  | halfPrecision
  | array (slot : Option Int) (access : Access) (name elements : String)
  | parameter (name type : String)
  | constant (name type : String) (value : Expression)
  | function (definition : Function)
  /-- The entry point for workgroups of `size` invocations, each knowing its number. -/
  | lanes (size : Int) (body : List Statement)
  /-- The entry point for a single invocation. -/
  | single (body : List Statement)

end ComputeArray.Kernel

namespace ComputeArray

/-- A kernel is the list of its items, in the order they are written. -/
structure Kernel where
  items : List Kernel.Item

end ComputeArray
