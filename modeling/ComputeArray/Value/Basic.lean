import ComputeArray.Cells.Descriptor
import ComputeArray.Number.Double

/-!
# Values handed in by callers

Shapes, scalars, fill data and options arrive as values of no fixed kind; each operation says which
kinds it accepts. A table is a host array of typed cells; truth values are words among them, and a
complex cell is its real part. A class of cells or a descriptor may itself be a value.
-/

set_option autoImplicit false

namespace ComputeArray

inductive Value where
  | none
  | bool (b : Bool)
  | int (n : Int)
  | float (x : Double)
  | text (s : String)
  | list (items : List Value)
  /-- A device array, by the number of its buffer, with the text it has in messages. -/
  | array (buffer : Nat) (described : String)
  | table (kind : CellKind) (shape : List Nat) (cells : List Value)
  | cellClass (name : String)
  | cellDescriptor (descriptor : Descriptor)
  deriving Inhabited

namespace Value

/-- The name a message calls the kind of a value by. -/
def typeName : Value → String
  | .none => "NoneType"
  | .bool _ => "bool"
  | .int _ => "int"
  | .float _ => "float"
  | .text _ => "str"
  | .list _ => "list"
  | .array .. => "NDArray"
  | .table .. => "numpy.ndarray"
  | .cellClass _ => "type"
  | .cellDescriptor descriptor => "numpy.dtypes." ++ descriptor.family ++ "DType"

/-- The same value with the cells of a table under the kind they compute like. -/
def native : Value → Value
  | .table kind shape cells => .table kind.native shape cells
  | value => value

end Value

end ComputeArray
