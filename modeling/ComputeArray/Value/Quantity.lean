import ComputeArray.Value.Scalar

/-!
# Quantities

A quantity is a number that may be the cell of a table. Beside a cell a free integer or float takes
on the kind of the cell, if that kind is of its sort or wider; two cells meet in the least kind that
holds both. Words wrap around, and floats are rounded to the format after every operation. Free
quantities combine as scalars.
-/

set_option autoImplicit false

namespace ComputeArray

inductive Quantity where
  | free (scalar : Scalar)
  | truth (b : Bool)
  | cell (kind : CellKind) (scalar : Scalar)

namespace Quantity

/-- Whether cells of a kind are quantities. -/
def isNumeric : CellKind → Bool
  | .boolean => true
  | .signed _ => true
  | .unsigned _ => true
  | .float _ => true
  | _ => false

def ofScalar? : Value → Option Quantity
  | .bool b => some (.truth b)
  | value => (Scalar.ofValue? value).map .free

/-- The quantity a value denotes. Cells of the general kind are as free as what they hold. -/
def ofValue? (value : Value) : Option Quantity :=
  match value.native with
  | .table .anything [] [held] => ofScalar? held
  | .table kind [] [held] =>
    if isNumeric kind then (Scalar.ofValue? held).map (.cell kind) else none
  | value => ofScalar? value

def scalar : Quantity → Scalar
  | .free scalar => scalar
  | .truth b => .int (if b then 1 else 0)
  | .cell _ scalar => scalar

/-- The kind that a quantity insists on. -/
def kind? : Quantity → Option CellKind
  | .free _ => none
  | .truth _ => some .boolean
  | .cell kind _ => some kind

def isCell : Quantity → Bool
  | .cell .. => true
  | _ => false

/-- The kind a free scalar takes on beside a kind. -/
def adopt (kind : CellKind) (scalar : Scalar) : CellKind :=
  match kind, scalar with
  | .float format, _ => .float format
  | .boolean, .int _ => .signed 64
  | kind, .int _ => kind
  | _, .float _ => .float .double

/-- The kind two quantities are combined in, if one of them is a cell. -/
def common? (a b : Quantity) : Option CellKind :=
  if a.isCell || b.isCell then
    match a.kind?, b.kind? with
    | some m, some n => some (m.join n)
    | some m, none => some (adopt m b.scalar)
    | none, some n => some (adopt n a.scalar)
    | none, none => none
  else none

/-- A datum after an operation in a format. Half precision computes in single precision. -/
def roundTo (format : FloatFormat) (datum : FloatDatum) : Double :=
  let working := if format = .half then FloatFormat.single else format
  .ofDatum (format.decode (format.encode (working.decode (working.encode datum))))

/-- A scalar as a number of a kind. -/
def convert (kind : CellKind) (scalar : Scalar) : Except Failure Scalar := do
  match kind, scalar with
  | .signed bits, .int n =>
    if Word.holdsSigned bits n then return .int n else throw (.beyondWord n kind.shown)
  | .unsigned bits, .int n =>
    if Word.holdsUnsigned bits n then return .int n else throw (.beyondWord n kind.shown)
  | .float format, scalar =>
    let x ← scalar.toDouble
    return .float (.ofDatum (format.decode (format.encode x.datum)))
  | _, scalar => return scalar

/-- The sum of numbers of a kind. -/
def addIn (kind : CellKind) (a b : Scalar) : Quantity :=
  match kind, a, b with
  | .boolean, .int m, .int n => .cell kind (.int (if m = 0 ∧ n = 0 then 0 else 1))
  | .signed bits, .int m, .int n => .cell kind (.int (Word.wrapSigned bits (m + n)))
  | .unsigned bits, .int m, .int n => .cell kind (.int (Word.pattern bits (m + n)))
  | .float format, .float x, .float y =>
    .cell kind (.float (roundTo format (x.datum.add y.datum)))
  | _, a, _ => .free a

/-- The difference of numbers of a kind; truth values have none. -/
def subIn (kind : CellKind) (a b : Scalar) : Except Failure Quantity :=
  match kind, a, b with
  | .boolean, _, _ => .error .truthDifference
  | .signed bits, .int m, .int n => .ok (.cell kind (.int (Word.wrapSigned bits (m - n))))
  | .unsigned bits, .int m, .int n => .ok (.cell kind (.int (Word.pattern bits (m - n))))
  | .float format, .float x, .float y =>
    .ok (.cell kind (.float (roundTo format (x.datum.sub y.datum))))
  | _, a, _ => .ok (.free a)

/-- The quotient of numbers of a kind. Words are divided in double precision. -/
def divideIn (kind : CellKind) (a b : Scalar) : Double :=
  let format :=
    match kind with
    | .float format => format
    | _ => .double
  let rounded (scalar : Scalar) : FloatDatum := (Double.ofDatum scalar.datum).datum
  roundTo format ((rounded a).div (rounded b))

def add (a b : Quantity) : Except Failure Quantity := do
  match common? a b with
  | none => return .free (← a.scalar.add b.scalar)
  | some kind => return addIn kind (← convert kind a.scalar) (← convert kind b.scalar)

def sub (a b : Quantity) : Except Failure Quantity := do
  match common? a b with
  | none => return .free (← a.scalar.sub b.scalar)
  | some kind => subIn kind (← convert kind a.scalar) (← convert kind b.scalar)

def divide (a b : Quantity) : Except Failure Double := do
  match common? a b with
  | none => a.scalar.divide b.scalar
  | some kind => return divideIn kind (← convert kind a.scalar) (← convert kind b.scalar)

end Quantity

end ComputeArray
