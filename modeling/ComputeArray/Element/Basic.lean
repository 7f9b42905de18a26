import ComputeArray.Cells.Format

/-!
# Element types

Device arrays hold one of four element types: 32-bit integers with and without sign, and floats of
half and single precision. `ElementType.ofValue` reads the names callers may use for them.
-/

set_option autoImplicit false

namespace ComputeArray

inductive ElementType where
  | i32
  | u32
  | f16
  | f32
  deriving DecidableEq, Repr, Inhabited

namespace ElementType

def all : List ElementType := [.i32, .u32, .f16, .f32]

def name : ElementType → String
  | .i32 => "i32"
  | .u32 => "u32"
  | .f16 => "f16"
  | .f32 => "f32"

/-- The kind of a host cell with the same values. -/
def cellKind : ElementType → CellKind
  | .i32 => .signed 32
  | .u32 => .unsigned 32
  | .f16 => .float .half
  | .f32 => .float .single

def cells (element : ElementType) : String := element.cellKind.shown

/-- Bytes of one element. -/
def size : ElementType → Nat
  | .f16 => 2
  | _ => 4

def isFloat : ElementType → Bool
  | .f16 => true
  | .f32 => true
  | _ => false

def ofName? (name : String) : Option ElementType := all.find? (·.name = name)

/-- The type whose elements are the cells of a kind. -/
def ofCells? (kind : CellKind) : Option ElementType := all.find? (·.cellKind = kind)

/-- A foreign byte order, a block or a record is no element type. -/
def ofDescriptor? : Descriptor → Option ElementType
  | .cells kind false => ofCells? kind
  | _ => none

/-- The type of a name, or of the cells a text describes. -/
def ofText? (text : String) : Except Failure (Option ElementType) :=
  match ofName? text with
  | some element => .ok (some element)
  | none => (Descriptor.ofText? text).map (·.bind ofDescriptor?)

def ofValue (value : Value) : Except Failure ElementType := do
  let found ←
    match value with
    | .none => pure (some .f32)
    | .text text => ofText? text
    | .cellClass name => pure ((CellKind.names.lookup name).bind ofCells?)
    | .cellDescriptor descriptor => pure (ofDescriptor? descriptor)
    | _ => pure none
  match found with
  | some element => return element
  | none => throw (.unknownElementType value)

end ElementType

end ComputeArray
