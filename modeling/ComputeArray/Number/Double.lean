import ComputeArray.Number.Format

/-!
# Double precision numbers

A double is its 64 bits. Every operation decodes, computes exactly and rounds once.
-/

set_option autoImplicit false

namespace ComputeArray

structure Double where
  bits : UInt64
  deriving DecidableEq, Repr

namespace Double

def datum (x : Double) : FloatDatum := FloatFormat.double.decode x.bits.toNat

def ofDatum (d : FloatDatum) : Double := ⟨(FloatFormat.double.encode d).toUInt64⟩

def isNaN (x : Double) : Bool :=
  match x.datum with
  | .nan .. => true
  | _ => false

def isNegative (x : Double) : Bool :=
  match x.datum with
  | .nan negative _ => negative
  | .infinite negative => negative
  | .finite negative _ => negative

/-- The double nearest to an integer, unless it lies beyond the largest double. -/
def ofInt? (n : Int) : Option Double :=
  let x := ofDatum (.ofInt n)
  match x.datum with
  | .infinite _ => none
  | _ => some x

def add (x y : Double) : Double := ofDatum (x.datum.add y.datum)

def sub (x y : Double) : Double := ofDatum (x.datum.sub y.datum)

def div (x y : Double) : Double := ofDatum (x.datum.div y.datum)

/-- Whether the double is a finite whole number. -/
def isWhole (x : Double) : Bool :=
  match x.datum with
  | .finite _ magnitude => magnitude.den = 1
  | _ => false

end Double

end ComputeArray
