import ComputeArray.Failure
import ComputeArray.Text.Numeral

/-!
# Real scalars

A real scalar is an integer of any size or a double. Mixed arithmetic converts the integer to a
double first; the quotient of two integers is rounded once from the exact ratio. `Value.toReal`
reads whatever denotes a float, texts as numerals.
-/

set_option autoImplicit false

namespace ComputeArray

inductive Scalar where
  | int (n : Int)
  | float (x : Double)
  deriving DecidableEq

namespace Scalar

/-- The scalar a value denotes; truth values count as 0 and 1. -/
def ofValue? : Value → Option Scalar
  | .bool b => some (.int (if b then 1 else 0))
  | .int n => some (.int n)
  | .float x => some (.float x)
  | _ => none

def toValue : Scalar → Value
  | .int n => .int n
  | .float x => .float x

def toDouble : Scalar → Except Failure Double
  | .int n =>
    match Double.ofInt? n with
    | some x => .ok x
    | none => .error .beyondDouble
  | .float x => .ok x

def isFloat : Scalar → Bool
  | .int _ => false
  | .float _ => true

/-- The exact number a scalar stands for. -/
def datum : Scalar → FloatDatum
  | .int n => .ofInt n
  | .float x => x.datum

/-- Equality of numbers: kinds do not matter, zeros have no sign, and no NaN equals anything. -/
def sameNumber (a b : Scalar) : Bool :=
  match a.datum, b.datum with
  | .infinite s, .infinite t => s = t
  | a, b =>
    match a.value?, b.value? with
    | some x, some y => x = y
    | _, _ => false

def isNegative : Scalar → Bool
  | .int n => n < 0
  | .float x =>
    match x.datum with
    | .nan .. => false
    | .infinite negative => negative
    | .finite negative magnitude => negative && magnitude ≠ 0

def isZero : Scalar → Bool
  | .int n => n = 0
  | .float x =>
    match x.datum with
    | .finite _ magnitude => magnitude = 0
    | _ => false

def lift (ints : Int → Int → Int) (doubles : Double → Double → Double) (a b : Scalar) :
    Except Failure Scalar := do
  match a, b with
  | .int m, .int n => return .int (ints m n)
  | a, b => return .float (doubles (← a.toDouble) (← b.toDouble))

def add : Scalar → Scalar → Except Failure Scalar := lift (· + ·) Double.add

def sub : Scalar → Scalar → Except Failure Scalar := lift (· - ·) Double.sub

/-- The quotient as a double. -/
def divide (a b : Scalar) : Except Failure Double := do
  match a, b with
  | .int m, .int n =>
    if n = 0 then throw (.divisionByZero false)
    let quotient := Double.ofDatum (FloatDatum.div (.ofInt m) (.ofInt n))
    match quotient.datum with
    | .infinite _ => throw .quotientTooLarge
    | _ => return quotient
  | a, b =>
    let x ← a.toDouble
    let y ← b.toDouble
    if (Scalar.float y).isZero then throw (.divisionByZero true)
    return x.div y

end Scalar

namespace Value

/-- The float a value denotes, in double precision; a missing value is a NaN. -/
def toReal (value : Value) : Except Failure FloatDatum :=
  match value, Scalar.ofValue? value with
  | _, some scalar => scalar.toDouble.map Double.datum
  | .none, _ => .ok (.nan false FloatDatum.quietBit)
  | .text s, _ =>
    match Text.decimal? s with
    | some datum => .ok (Double.ofDatum datum).datum
    | Option.none => .error (.badDecimal s .given)
  | .list _, _ => .error .sequenceCell
  | .table .., _ => .error .sequenceCell
  | value, _ => .error (.notFloatable value.typeName)

end Value

end ComputeArray
