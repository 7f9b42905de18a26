import ComputeArray.Value.Integer

/-!
# Shapes

A shape is the list of extents of the axes, outermost first. Shapes are aligned at their last axes;
an axis of extent 1 stretches to any extent, and a missing leading axis counts as one of extent 1.
-/

set_option autoImplicit false

namespace ComputeArray

namespace Shape

/-- The shape a value denotes: one axis of extent 1 if there is none, else positive extents. -/
def ofValue (value : Value) : Except Failure (List Nat) := do
  let extents ←
    match value with
    | .none => pure [1]
    | value => value.toIntList
  if extents.isEmpty then throw .noAxes
  if extents.any (· ≤ 0) then throw (.notPositive extents)
  return extents.map Int.toNat

/-- The shape with leading axes of extent 1 up to the given number of axes. -/
def pad (axes : Nat) (shape : List Int) : List Int :=
  List.replicate (axes - shape.length) 1 ++ shape

/-- The extent common to the entries of one axis, if all that are not 1 agree. -/
def axisExtent? (extents : List Int) : Option Int :=
  match extents.filter (· ≠ 1) with
  | [] => some 1
  | extent :: rest => if rest.all (· = extent) then some extent else none

/-- The common shape of all given shapes. -/
def broadcast (shapes : List (List Int)) : Except Failure (List Int) :=
  match shapes with
  | [] => .error .noShapes
  | shapes =>
    let axes := (shapes.map List.length).foldl max 0
    let padded := shapes.map (pad axes)
    let column (axis : Nat) := axisExtent? (padded.map fun shape => shape.getD axis 1)
    match (List.range axes).mapM column with
    | some shape => .ok shape
    | none => .error (.incompatibleShapes shapes)

/-- The product of the extents. -/
def volume (shape : List Nat) : Nat := shape.foldr (· * ·) 1

end Shape

end ComputeArray
