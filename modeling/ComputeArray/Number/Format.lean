import ComputeArray.Number.Word

/-!
# Binary floating point formats

A format is a number of significand bits and a number of exponent bits. `decode` reads a bit pattern
as a datum (a NaN, an infinity or a signed exact rational) and `encode` writes a datum with one
rounding to nearest, ties to even, overflowing to infinity and keeping subnormals. Arithmetic on
data is exact, so a rounded operation is one exact operation followed by one `encode`. A NaN keeps
its sign and its payload through all of this, as far as the format has room for it.
-/

set_option autoImplicit false

namespace ComputeArray

/-- A binary format with `precision` significand bits, the leading one included. -/
structure FloatFormat where
  precision : Nat
  exponentBits : Nat
  deriving DecidableEq, Repr

/-- What a bit pattern of a format stands for. The sign of a zero is kept beside its magnitude. The
payload of a NaN is the fraction it has in double precision. -/
inductive FloatDatum where
  | nan (negative : Bool) (payload : Nat)
  | infinite (negative : Bool)
  | finite (negative : Bool) (magnitude : Rat)
  deriving DecidableEq

namespace FloatFormat

def half : FloatFormat := ⟨11, 5⟩

def single : FloatFormat := ⟨24, 8⟩

def double : FloatFormat := ⟨53, 11⟩

def width (format : FloatFormat) : Nat := format.precision + format.exponentBits

def bias (format : FloatFormat) : Nat := twoTo (format.exponentBits - 1) - 1

/-- The binary exponent of the smallest positive number. -/
def quantum (format : FloatFormat) : Int := 2 - (format.bias : Int) - (format.precision : Int)

/-- The pattern of positive infinity, which lies above those of all positive numbers. -/
def infinity (format : FloatFormat) : Nat :=
  (twoTo format.exponentBits - 1) * twoTo (format.precision - 1)

def signBit (format : FloatFormat) : Nat := twoTo (format.width - 1)

/-- The integer nearest to `num / den`, an exact half going to the even neighbour. -/
def nearest (num den : Nat) : Nat :=
  let quotient := num / den
  let rest := num % den
  if den < 2 * rest ∨ (2 * rest = den ∧ quotient % 2 = 1) then quotient + 1 else quotient

/-- The exponent `e` with `2 ^ e ≤ num / den < 2 ^ (e + 1)`. -/
def binaryExponent (num den : Nat) : Int :=
  let e : Int := (Nat.log2 num : Int) - (Nat.log2 den : Int)
  if num * twoTo (-e).toNat < den * twoTo e.toNat then e - 1 else e

/-- The pattern of the format's number nearest to `num / den`. A significand that rounds up to the
next power of two carries into the exponent field by itself. -/
def roundRatio (format : FloatFormat) (num den : Nat) : Nat :=
  if num = 0 then 0
  else
    let scale := max (binaryExponent num den - (format.precision - 1 : Nat)) format.quantum
    let significand := nearest (num * twoTo (-scale).toNat) (den * twoTo scale.toNat)
    min format.infinity
      ((scale - format.quantum).toNat * twoTo (format.precision - 1) + significand)

/-- How much wider the fraction of a double is than that of the format. -/
def payloadUnit (format : FloatFormat) : Nat := twoTo (53 - format.precision)

/-- The low bits of a payload may be lost, but not all bits of it. -/
def encode (format : FloatFormat) : FloatDatum → Nat
  | .nan negative payload =>
    (if negative then format.signBit else 0) + format.infinity
      + max 1 (payload / format.payloadUnit)
  | .infinite negative => (if negative then format.signBit else 0) + format.infinity
  | .finite negative magnitude =>
    (if negative then format.signBit else 0)
      + format.roundRatio magnitude.num.toNat magnitude.den

/-- Two to an integer power. -/
def pow2 (e : Int) : Rat :=
  if 0 ≤ e then (twoTo e.toNat : Rat) else mkRat 1 (twoTo (-e).toNat)

def decode (format : FloatFormat) (bits : Nat) : FloatDatum :=
  let negative := bits / format.signBit % 2 = 1
  let magnitude := bits % format.signBit
  let fraction := magnitude % twoTo (format.precision - 1)
  let exponent := magnitude / twoTo (format.precision - 1)
  if format.infinity < magnitude then .nan negative (fraction * format.payloadUnit)
  else if magnitude = format.infinity then .infinite negative
  else if exponent = 0 then .finite negative ((fraction : Nat) * pow2 format.quantum)
  else
    .finite negative
      ((fraction + twoTo (format.precision - 1) : Nat)
        * pow2 (format.quantum + (exponent - 1 : Nat)))

end FloatFormat

namespace FloatDatum

def ofInt (n : Int) : FloatDatum := .finite (n < 0) (n.natAbs : Rat)

/-- The exact value of a finite datum. -/
def value? : FloatDatum → Option Rat
  | .finite negative magnitude => some (if negative then -magnitude else magnitude)
  | _ => none

def neg : FloatDatum → FloatDatum
  | .nan negative payload => .nan (!negative) payload
  | .infinite negative => .infinite (!negative)
  | .finite negative magnitude => .finite (!negative) magnitude

/-- The leading bit of a payload, which marks a NaN as quiet. -/
def quietBit : Nat := twoTo 51

/-- The datum with a NaN made quiet, as arithmetic does with the NaNs it meets. -/
def quiet : FloatDatum → FloatDatum
  | .nan negative payload => .nan negative (quietBit + payload % quietBit)
  | datum => datum

/-- The datum an operation without a result gives: a quiet NaN with its sign bit set. -/
def invalid : FloatDatum := .nan true quietBit

/-- Exact sum. A zero sum is negative only if both terms are. -/
def add : FloatDatum → FloatDatum → FloatDatum
  | .nan s p, _ => quiet (.nan s p)
  | _, .nan s p => quiet (.nan s p)
  | .infinite s, .infinite t => if s = t then .infinite s else invalid
  | .infinite s, _ => .infinite s
  | _, .infinite t => .infinite t
  | .finite s a, .finite t b =>
    let sum := (if s then -a else a) + (if t then -b else b)
    if sum = 0 then .finite (s && t) 0
    else if sum < 0 then .finite true (-sum)
    else .finite false sum

def sub (a b : FloatDatum) : FloatDatum :=
  match b with
  | .nan s p => a.add (.nan s p)
  | b => a.add b.neg

def mul : FloatDatum → FloatDatum → FloatDatum
  | .nan s p, _ => quiet (.nan s p)
  | _, .nan s p => quiet (.nan s p)
  | .infinite s, .infinite t => .infinite (s != t)
  | .infinite s, .finite t b => if b = 0 then invalid else .infinite (s != t)
  | .finite s a, .infinite t => if a = 0 then invalid else .infinite (s != t)
  | .finite s a, .finite t b => .finite (s != t) (a * b)

/-- Exact quotient. A number divided by zero is infinite, and zero by zero has no quotient. -/
def div : FloatDatum → FloatDatum → FloatDatum
  | .nan s p, _ => quiet (.nan s p)
  | _, .nan s p => quiet (.nan s p)
  | .infinite _, .infinite _ => invalid
  | .infinite s, .finite t _ => .infinite (s != t)
  | .finite s _, .infinite t => .finite (s != t) 0
  | .finite s a, .finite t b =>
    if b ≠ 0 then .finite (s != t) (a / b)
    else if a = 0 then invalid
    else .infinite (s != t)

end FloatDatum

end ComputeArray
