import ComputeArray.Element.Cell
import ComputeArray.Element.Memory
import ComputeArray.Shape
import ComputeArray.Value.Quantity

/-!
# Evenly spaced values

The values from `start` up to, but without, `stop` in steps of `step`. The length comes from exact
scalar arithmetic, the first two elements from `start` and `start + step`, and every later one from
their difference in the arithmetic of the element type. Cells of tables keep to their kinds in the
arithmetic; tables with axes have no length to give.
-/

set_option autoImplicit false

namespace ComputeArray

namespace Range

/-- The least integer not below a finite number. -/
def ceiling (value : Rat) : Int := -((-value).num.fdiv (-value).den)

/-- The number of steps a quotient of distance and step allows. A quotient that vanishes although
the distance does not counts as one step, or none if it is negative; the first length that no word
holds wraps around to none. -/
def lengthOf (distance : Scalar) (quotient : Double) : Except Failure Nat :=
  match quotient.datum with
  | .nan .. => .error .unknownLength
  | .infinite _ => .error .rangeTooLarge
  | .finite negative magnitude =>
    if magnitude = 0 ∧ !distance.isZero then .ok (if negative then 0 else 1)
    else
      let steps := ceiling (if negative then -magnitude else magnitude)
      if Word.holdsSigned 64 steps then .ok steps.toNat
      else if steps = twoTo 63 then .ok 0
      else .error .rangeTooLarge

/-- Numbers that overflow make a range too large. -/
def failureOf (failure : Failure) : Failure :=
  if failure.kind = .overflow then .rangeTooLarge else failure

def sized {α : Type} (result : Except Failure α) : Except Failure α := result.mapError failureOf

def singleOf (datum : FloatDatum) : FloatDatum :=
  FloatFormat.single.decode (FloatFormat.single.encode datum)

/-- The later elements, given the first two. Words wrap. Single precision rounds every operation;
half precision computes in single precision and rounds the sum. -/
def extrapolate (element : ElementType) (first second : Nat) (i : Nat) : Nat :=
  let along (format : FloatFormat) : FloatDatum :=
    let start := format.decode first
    let step := singleOf ((format.decode second).sub start)
    start.add (singleOf ((singleOf (.ofInt i)).mul step))
  match element with
  | .f16 => FloatFormat.half.encode (singleOf (along .half))
  | .f32 => FloatFormat.single.encode (along .single)
  | _ => ElementType.wordBits (first + i * (second - first : Int))

/-- The elements from the length and the second value on. -/
def elements (element : ElementType) (count : Nat) (start next : Scalar) :
    Except Failure (List Nat) := do
  let _ ← element.hostBytes [count]
  let first ← element.store start.toValue
  if count = 1 then return [first]
  let second ← element.store next.toValue
  return first :: second ::
    (List.range (count - 2)).map fun i => extrapolate element first second (i + 2)

/-- The elements for a start, the distance to the end and a step. -/
def between (element : ElementType) (start distance step : Quantity) :
    Except Failure (List Nat) := do
  let count ← sized (do lengthOf distance.scalar (← distance.divide step))
  if count = 0 then return []
  let next ← sized (start.add step)
  elements element count start.scalar next.scalar

/-- Whether a value has axes beside a table: lists have them only there. -/
def hasAxes (besideTable : Bool) : Value → Bool
  | .table _ (_ :: _) _ => true
  | .list _ => besideTable
  | _ => false

def isTable : Value → Bool
  | .table .. => true
  | _ => false

/-- Refuses a table as a truth value unless it is a single cell. -/
def checkTruth (shape : List Nat) : Except Failure Unit :=
  if Shape.volume shape = 0 then .error .emptyTruth
  else if Shape.volume shape ≠ 1 then .error .manyTruths
  else .ok ()

/-- The common shape of two tables. -/
def commonShape (left right : List Nat) : Except Failure (List Nat) :=
  match Shape.broadcast [left.map Int.ofNat, right.map Int.ofNat] with
  | .ok shape => .ok (shape.map Int.toNat)
  | .error _ => .error (.unequalShapes left right)

/-- What comes of a distance with axes: it is compared with zero, divided by the step, compared
again, and then it is no number. -/
def refuseAxes (distance : List Nat) (step : Value) : Except Failure (List Nat) := do
  checkTruth distance
  checkTruth (← commonShape distance (← step.nestedShape))
  throw .notScalarTable

/-- The distance between numbers given by a caller. -/
def distance (start stop : Value) : Except Failure Quantity :=
  match Quantity.ofValue? stop, Quantity.ofValue? start with
  | some last, some first => sized (last.sub first)
  | _, _ => .error (.unsupportedOperands "-" stop.typeName start.typeName)

/-- The start and the end: a missing end makes the start the end. -/
def ends (start stop : Value) : Value × Value :=
  match stop with
  | .none => (.int 0, start)
  | stop => (start, stop)

/-- The step, which is 1 if it is missing. -/
def stepOf : Value → Value
  | .none => .int 1
  | step => step

/-- The elements for values given by a caller. -/
def ofValues (element : ElementType) (start stop step : Value) : Except Failure (List Nat) := do
  let (start, stop) := ends start stop
  let step := stepOf step
  if hasAxes (isTable start) stop || hasAxes (isTable stop) start then
    refuseAxes (← commonShape (← stop.nestedShape) (← start.nestedShape)) step
  else
    let distance ← distance start stop
    if hasAxes distance.isCell step then refuseAxes [] step
    else
      match Quantity.ofValue? step, Quantity.ofValue? start with
      | some step, some start => between element start distance step
      | _, _ =>
        let word := if distance.scalar.isFloat then "float" else "int"
        throw (.unsupportedOperands "/" word step.typeName)

end Range

end ComputeArray
