import ComputeArray.Value.Integer
import ComputeArray.Value.Scalar
import ComputeArray.Value.Truth

/-!
# Tables

A table of a kind is made from values by making each of them a cell of that kind: floats are rounded
to the format, numbers cut to integers for words, and everything written out for texts, as far as
there is room.
-/

set_option autoImplicit false

namespace ComputeArray

/-- The pattern of a double in a format. Single precision makes a NaN quiet. -/
def FloatFormat.ofDouble (format : FloatFormat) (datum : FloatDatum) : Nat :=
  format.encode (if format = .single then datum.quiet else datum)

namespace Value

def floatCell (format : FloatFormat) (value : Value) : Value :=
  match value.toReal with
  | .ok datum => .float (.ofDatum (format.decode (format.ofDouble datum)))
  | .error _ => value

def wordCell (value : Value) : Value :=
  match value.scalarToInt with
  | .ok n => .int n
  | .error _ => value

def textCell (length : Nat) (value : Value) : Value :=
  .text (String.ofList (value.plain.toList.take length))

/-- The cell a value makes in a table of the given kind. -/
def asCell (kind : CellKind) (value : Value) : Value :=
  match kind.native with
  | .boolean => .int (if value.isTruthy then 1 else 0)
  | .signed _ => wordCell value
  | .unsigned _ => wordCell value
  | .float format => floatCell format value
  | .complex format => floatCell format value
  | .text length => textCell length value
  | .bytes length => textCell length value
  | _ => value

/-- The kind with a length that is open set to that of the longest value. -/
def settled (kind : CellKind) (values : List Value) : CellKind :=
  let longest := (values.map fun value => value.plain.length).foldl max 1
  match kind with
  | .text 0 => .text longest
  | .bytes 0 => .bytes longest
  | kind => kind

/-- A table of the given kind from values in row-major order. -/
def tableOf (kind : CellKind) (shape : List Nat) (values : List Value) : Value :=
  let kind := settled kind values
  .table kind shape (values.map (asCell kind))

end Value

end ComputeArray
