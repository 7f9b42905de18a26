import ComputeArray.Value.Integer

/-!
# Nested sequences as tables

A list of lists is read as a table whose shape is found from the outside in: the length of a list
comes first, then the longest shape its items agree on. Items that agree no further make the list
ragged, and so do lists nested deeper than a table may have axes. The cell kind of a table is the
least kind that holds all its leaves.
-/

set_option autoImplicit false

namespace ComputeArray

/-- The axes a table has at most. -/
def axisLimit : Nat := 64

/-- The extents found in a nested sequence, and whether parts of it disagreed beyond them. -/
structure Outline where
  extents : List Nat
  ragged : Bool
  deriving DecidableEq

namespace Outline

def commonPart : List Nat → List Nat → List Nat
  | a :: as, b :: bs => if a = b then a :: commonPart as bs else []
  | _, _ => []

/-- The outline of a sequence of parts with the given outlines. -/
def sequence (parts : List Outline) : Outline :=
  match parts with
  | [] => ⟨[0], false⟩
  | first :: rest =>
    let common := rest.foldl (fun extents part => commonPart extents part.extents) first.extents
    ⟨parts.length :: common, parts.any fun part => part.ragged || part.extents ≠ common⟩

end Outline

namespace Value

mutual

/-- The outline of a value, with no more than the given number of axes. -/
def outline (limit : Nat) : Value → Outline
  | .list items => if limit = 0 then ⟨[], true⟩ else .sequence (outlines (limit - 1) items)
  | .table _ shape _ => ⟨shape.take limit, limit < shape.length⟩
  | _ => ⟨[], false⟩

def outlines (limit : Nat) : List Value → List Outline
  | [] => []
  | item :: rest => outline limit item :: outlines limit rest

end

mutual

/-- The scalars inside a nested sequence, cells of tables as tables without axes. -/
def leaves : Value → List Value
  | .list items => leavesAll items
  | .table kind _ cells => cells.map fun cell => .table kind [] [cell]
  | value => [value]

def leavesAll : List Value → List Value
  | [] => []
  | item :: rest => leaves item ++ leavesAll rest

end

/-- The shape of a nested sequence; scalars have none. -/
def nestedShape (value : Value) : Except Failure (List Nat) :=
  let outline := value.outline axisLimit
  if !outline.ragged then .ok outline.extents
  else if outline.extents.length = axisLimit then .error .tooDeep
  else .error (.ragged outline.extents)

end Value

namespace CellKind

/-- The kind of a single value. -/
def ofLeaf : Value → CellKind
  | .bool _ => .boolean
  | .int n =>
    if Word.holdsSigned 64 n then .signed 64
    else if Word.holdsUnsigned 64 n then .unsigned 64
    else .anything
  | .float _ => .float .double
  | .text s => .text (max 1 s.length)
  | _ => .anything

end CellKind

namespace Value

mutual

/-- The kinds of the scalars and of the tables in a nested sequence. -/
def kinds : Value → List CellKind
  | .list items => kindsAll items
  | .table kind _ _ => [kind]
  | value => [CellKind.ofLeaf value]

def kindsAll : List Value → List CellKind
  | [] => []
  | item :: rest => kinds item ++ kindsAll rest

end

/-- The least kind that holds everything in a nested sequence. -/
def commonKind (value : Value) : CellKind :=
  match value.kinds with
  | [] => .float .double
  | first :: rest => rest.foldl CellKind.join first

/-- The cell kind, shape and leaves of the table a value is read as. -/
def asTable (value : Value) : Except Failure (CellKind × List Nat × List Value) := do
  let shape ← value.nestedShape
  return (value.commonKind, shape, value.leaves)

end Value

end ComputeArray
