import ComputeArray.Failure
import ComputeArray.Text.Numeral

/-!
# Integers from values

`Value.toInt` accepts whatever denotes an integer, truncating floats toward zero and reading texts
as numerals. `Value.toIndex` accepts only values that are integers already.
-/

set_option autoImplicit false

namespace ComputeArray

/-- The whole part of a finite double, cut toward zero. -/
def Double.truncate (x : Double) : Except Failure Int :=
  match x.datum with
  | .nan .. => .error .notANumber
  | .infinite _ => .error .infinity
  | .finite negative magnitude =>
    let whole : Int := (magnitude.num.toNat / magnitude.den : Nat)
    .ok (if negative then -whole else whole)

namespace Value

def textToInt (origin : TextOrigin) (s : String) : Except Failure Int :=
  match Text.integer? s with
  | some n => .ok n
  | Option.none => .error (.badInteger s origin)

def scalarToInt : Value → Except Failure Int
  | .bool b => .ok (if b then 1 else 0)
  | .int n => .ok n
  | .float x => x.truncate
  | .text s => textToInt .given s
  | value => .error (.notNumeric value.typeName)

/-- The integer a cell of a table denotes. -/
def cellToInt (kind : CellKind) (cell : Value) : Except Failure Int :=
  match kind.native, cell with
  | .text _, .text s => textToInt .cell s
  | .bytes _, .text s => textToInt .bytes s
  | _, cell => cell.scalarToInt

def toInt (value : Value) : Except Failure Int :=
  match value.native with
  | .table (.complex _) [] _ => .error (.notNumeric "complex")
  | .table (.bytes _) [] [.text s] => textToInt .bytes s
  | .table _ [] [cell] => cell.scalarToInt
  | .table .. => .error .notScalarTable
  | value => value.scalarToInt

def toIndex (value : Value) : Except Failure Int :=
  match value.native with
  | .bool b => .ok (if b then 1 else 0)
  | .int n => .ok n
  | .table (.signed _) [] [.int n] => .ok n
  | .table (.unsigned _) [] [.int n] => .ok n
  | value => .error (.notIndex value.typeName)

/-- The rows of a table, each with one axis less. -/
def rows (kind : CellKind) (shape : List Nat) (cells : List Value) : List Value :=
  match shape with
  | [] => []
  | extent :: rest =>
    let size := rest.foldl (· * ·) 1
    (List.range extent).map fun i => .table kind rest ((cells.drop (i * size)).take size)

/-- The members of a sequence; those of a text are its characters. -/
def members : Value → Except Failure (List Value)
  | .list items => .ok items
  | .text s => .ok (s.toList.map fun c => .text (String.singleton c))
  | .table _ [] _ => .error .iterationOverScalarTable
  | .table kind shape cells => .ok (rows kind shape cells)
  | value => .error (.notIterable value.typeName)

/-- The items a value stands for where a sequence is expected: an integer stands for itself
alone. -/
def items : Value → Except Failure (List Value)
  | .bool b => .ok [.bool b]
  | .int n => .ok [.int n]
  | value => value.members

/-- Sequences of integers, as shapes and strides are given. The cells of a table with one axis are
scalars of their own, no tables. -/
def toIntList (value : Value) : Except Failure (List Int) := do
  match value with
  | .table kind [_] cells => cells.mapM (cellToInt kind)
  | value => (← value.items).mapM toInt

end Value

end ComputeArray
