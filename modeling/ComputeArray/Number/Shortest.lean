import ComputeArray.Number.Double

/-!
# Shortest decimal text

`Shortest.digits` finds the fewest significant digits that read back as the same number of a format,
and of those the ones nearest to it. `FloatFormat.text` writes them: positionally for decimal
exponents from -4 to 15, with an exponent of at least two digits otherwise, always with a sign of
being a float.
-/

set_option autoImplicit false

namespace ComputeArray

namespace Shortest

/-- The exponent `k` with `10 ^ k ≤ num / den < 10 ^ (k + 1)`, found near an estimate from the
binary exponent. -/
def decimalExponent (num den : Nat) : Int :=
  let estimate := FloatFormat.binaryExponent num den * 30103 / 100000
  let atLeast (k : Int) : Bool := den * tenTo k.toNat ≤ num * tenTo (-k).toNat
  if atLeast (estimate + 1) then estimate + 1
  else if atLeast estimate then estimate
  else estimate - 1

/-- Whether `digits * 10 ^ scale` rounds to the pattern `bits`. -/
def readsBack (format : FloatFormat) (bits digits : Nat) (scale : Int) : Bool :=
  format.roundRatio (digits * tenTo scale.toNat) (tenTo (-scale).toNat) = bits

/-- On the grid of `count` digits, the neighbour of `num / den` that reads back; of two the
nearer, and of two equally near the even one. -/
def onGrid? (format : FloatFormat) (bits num den : Nat) (exponent : Int) (count : Nat) :
    Option (Nat × Int) :=
  let scale := exponent - (count - 1 : Nat)
  let top := num * tenTo (-scale).toNat
  let bottom := den * tenTo scale.toNat
  let lower := top / bottom
  match readsBack format bits lower scale, readsBack format bits (lower + 1) scale with
  | true, true => some (FloatFormat.nearest top bottom, scale)
  | true, false => some (lower, scale)
  | false, true => some (lower + 1, scale)
  | false, false => none

/-- The first grid from `count` digits on that has a reading; no format of at most 53 significand
bits needs more than seventeen digits. -/
def search (format : FloatFormat) (bits num den : Nat) (exponent : Int) : Nat → Nat → Nat × Int
  | 0, count => (num / den, (count : Int))
  | fuel + 1, count =>
    match onGrid? format bits num den exponent count with
    | some found => found
    | none => search format bits num den exponent fuel (count + 1)

/-- The shortest digits of a positive magnitude with pattern `bits`, and the power of ten of the
last of them. -/
def digits (format : FloatFormat) (bits num den : Nat) : Nat × Int :=
  search format bits num den (decimalExponent num den) 17 1

/-- The digits without the zeros at their end. -/
def trimZeros : List Char → List Char
  | cs => (cs.reverse.dropWhile (· = '0')).reverse

end Shortest

/-- Where positional text ends, and how wide an exponent is at least. -/
structure DecimalStyle where
  smallest : Int
  largest : Int
  exponentWidth : Nat

/-- Doubles are positional from 0.0001 up to sixteen digits before the point. -/
def DecimalStyle.plain : DecimalStyle := ⟨-4, 15, 2⟩

namespace DecimalStyle

def padLeft (width : Nat) (cs : List Char) : List Char :=
  List.replicate (width - cs.length) '0' ++ cs

/-- The text of the significant digits `cs`, the first of which stands for `10 ^ exponent`. -/
def write (style : DecimalStyle) (cs : List Char) (exponent : Int) : String :=
  if exponent < style.smallest ∨ style.largest < exponent then
    let rest := cs.drop 1
    let fraction := if rest.isEmpty then [] else '.' :: rest
    let power := padLeft style.exponentWidth (Nat.toDigits 10 exponent.natAbs)
    String.ofList
      (cs.take 1 ++ fraction ++ ['e', if exponent < 0 then '-' else '+'] ++ power)
  else if exponent < 0 then
    String.ofList (['0', '.'] ++ List.replicate (exponent.natAbs - 1) '0' ++ cs)
  else
    let whole := exponent.toNat + 1
    let front := cs.take whole ++ List.replicate (whole - cs.length) '0'
    let back := cs.drop whole
    String.ofList (front ++ '.' :: (if back.isEmpty then ['0'] else back))

end DecimalStyle

/-- The shortest text that reads back as the number with the given pattern. -/
def FloatFormat.text (format : FloatFormat) (bits : Nat) : String :=
  match format.decode bits with
  | .nan .. => "nan"
  | .infinite negative => if negative then "-inf" else "inf"
  | .finite negative magnitude =>
    let sign := if negative then "-" else ""
    if magnitude = 0 then sign ++ "0.0"
    else
      let (found, scale) :=
        Shortest.digits format (bits % format.signBit) magnitude.num.toNat magnitude.den
      let cs := Nat.toDigits 10 found
      sign ++ DecimalStyle.plain.write (Shortest.trimZeros cs) (scale + (cs.length : Int) - 1)

def Double.text (x : Double) : String := FloatFormat.double.text x.bits.toNat

end ComputeArray
