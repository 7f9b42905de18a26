import ComputeArray.Number.Shortest

/-!
# Floats in columns

Floats that stand below or beside each other are written in the same width and aligned at their
points. They have at most eight digits after the point. All of them have exponents if some are large
or small or if they lie far apart, and then all have equally many digits, exact ones where their
shortest texts have fewer.
-/

set_option autoImplicit false

namespace ComputeArray.Column

/-- The digits after the point at most. -/
def places : Nat := 8

def padStart (width : Nat) (fill : Char) (cs : List Char) : List Char :=
  List.replicate (width - cs.length) fill ++ cs

def padEnd (width : Nat) (fill : Char) (cs : List Char) : List Char :=
  cs ++ List.replicate (width - cs.length) fill

/-- The parts of a written number; one without an exponent has no digits there. -/
structure Numeral where
  whole : List Char
  fraction : List Char
  powerSign : List Char
  power : List Char

namespace Numeral

def signOf (negative : Bool) : List Char := if negative then ['-'] else []

def patternOf (format : FloatFormat) (magnitude : Rat) : Nat :=
  format.roundRatio magnitude.num.toNat magnitude.den

/-- The shortest digits of a positive magnitude and the power of ten of the last of them. -/
def shortest (format : FloatFormat) (magnitude : Rat) : Nat × Int :=
  Shortest.digits format (patternOf format magnitude) magnitude.num.toNat magnitude.den

/-- The integer nearest to a magnitude divided by a power of ten. -/
def nearestOn (magnitude : Rat) (grid : Int) : Nat :=
  FloatFormat.nearest (magnitude.num.toNat * tenTo (-grid).toNat)
    (magnitude.den * tenTo grid.toNat)

/-- The digits of a magnitude as a multiple of a power of ten, as far as they are written. -/
def decimals (format : FloatFormat) (magnitude : Rat) : Nat × Nat :=
  let (digits, scale) := if magnitude = 0 then (0, 0) else shortest format magnitude
  if scale < -(places : Int) then (nearestOn magnitude (-(places : Int)), places)
  else (digits * tenTo scale.toNat, (-scale).toNat)

def positional (format : FloatFormat) (negative : Bool) (magnitude : Rat) : Numeral :=
  let (digits, below) := decimals format magnitude
  let fraction := padStart below '0' (Nat.toDigits 10 (digits % tenTo below))
  ⟨signOf negative ++ Nat.toDigits 10 (digits / tenTo below), Shortest.trimZeros fraction, [], []⟩

/-- A number whose first digit stands for `10 ^ exponent`, the exponent in at least two digits. -/
def ofDigits (negative : Bool) (cs : List Char) (exponent : Int) (powerWidth : Nat) : Numeral :=
  ⟨signOf negative ++ cs.take 1, cs.drop 1, ['e', if exponent < 0 then '-' else '+'],
    padStart powerWidth '0' (Nat.toDigits 10 exponent.natAbs)⟩

/-- The shortest digits of a magnitude, as far as they are written, with an exponent. -/
def briefest (format : FloatFormat) (negative : Bool) (magnitude : Rat) : Numeral :=
  if magnitude = 0 then ofDigits negative ['0'] 0 2
  else
    let (digits, scale) := shortest format magnitude
    let count := (Nat.toDigits 10 digits).length
    let cut : Nat × Int :=
      if count ≤ places + 1 then (digits, scale)
      else
        let grid := scale + (count : Int) - 1 - (places : Int)
        (nearestOn magnitude grid, grid)
    let cs := Nat.toDigits 10 cut.1
    ofDigits negative (Shortest.trimZeros cs) (cut.2 + (cs.length : Int) - 1) 2

/-- The number with a fixed number of digits after the point. Of the two numbers on this grid around
the magnitude the one that reads back is taken, if it is only one, and else the nearer. -/
def exact (format : FloatFormat) (negative : Bool) (magnitude : Rat) (digits powerWidth : Nat) :
    Numeral :=
  if magnitude = 0 then ofDigits negative (List.replicate (digits + 1) '0') 0 powerWidth
  else
    let num := magnitude.num.toNat
    let exponent := Shortest.decimalExponent num magnitude.den
    let grid := exponent - (digits : Int)
    let found :=
      match Shortest.onGrid? format (patternOf format magnitude) num magnitude.den exponent
        (digits + 1) with
      | some (found, _) => found
      | none => nearestOn magnitude grid
    let cs := Nat.toDigits 10 found
    ofDigits negative (cs.take (digits + 1)) (grid + (cs.length : Int) - 1) powerWidth

end Numeral

/-- The magnitude from which on numbers are written with exponents. -/
def largest (format : FloatFormat) : Rat :=
  (tenTo (min places ((format.precision - 1) * 30103 / 100000)) : Nat)

/-- The magnitude below which numbers are written with exponents. -/
def smallest (format : FloatFormat) : Rat :=
  ((format.decode (format.roundRatio 1 10000)).value?).getD 0

def magnitudes (cells : List FloatDatum) : List Rat :=
  cells.filterMap fun
    | .finite _ magnitude => some magnitude
    | _ => none

/-- A positive number rounded to a format; what is too large has no value. -/
def rounded? (format : FloatFormat) (value : Rat) : Option Rat :=
  (format.decode (Numeral.patternOf format value)).value?

/-- Whether the quotient of two magnitudes, computed in the format, is above a thousand. Half
precision divides in single precision first. -/
def isFarAbove (format : FloatFormat) (large small : Rat) : Bool :=
  let working := if format = .half then FloatFormat.single else format
  match (rounded? working (large / small)).bind (rounded? format) with
  | some quotient => 1000 < quotient
  | none => true

/-- Whether numbers are written with exponents. -/
def isExponential (format : FloatFormat) (cells : List FloatDatum) : Bool :=
  match (magnitudes cells).filter (· ≠ 0) with
  | [] => false
  | first :: rest =>
    let large := rest.foldl (fun a b => if a < b then b else a) first
    let small := rest.foldl (fun a b => if b < a then b else a) first
    largest format ≤ large || small < smallest format || isFarAbove format large small

/-- The text of a cell without digits. -/
def word : FloatDatum → List Char
  | .infinite true => ['-', 'i', 'n', 'f']
  | .infinite false => ['i', 'n', 'f']
  | _ => ['n', 'a', 'n']

/-- The width all cells share, part by part. -/
structure Widths where
  left : Nat
  right : Nat
  power : Nat
  width : Nat

def longest (texts : List (List Char)) : Nat := (texts.map List.length).foldl max 0

/-- The widths that hold all numerals and all words of cells without digits. -/
def widthsOf (numerals : List Numeral) (words : List (List Char)) : Widths :=
  let right := longest (numerals.map Numeral.fraction)
  let power := longest (numerals.map Numeral.power)
  let tail := 1 + right + (if power = 0 then 0 else power + 2)
  let left := max (longest (numerals.map Numeral.whole)) (longest words - tail)
  ⟨left, right, power, left + tail⟩

def writeNumeral (widths : Widths) (n : Numeral) : List Char :=
  padStart widths.left ' ' n.whole ++ '.' :: padEnd widths.right ' ' n.fraction ++ n.powerSign
    ++ n.power

/-- The texts of floats of a format, in one width. -/
def texts (format : FloatFormat) (cells : List FloatDatum) : List String :=
  let numeralsBy (write : Bool → Rat → Numeral) : List Numeral :=
    cells.filterMap fun
      | .finite negative magnitude => some (write negative magnitude)
      | _ => none
  let words := cells.filterMap fun
    | .finite .. => none
    | cell => some (word cell)
  let exponential := isExponential format cells
  let widths :=
    widthsOf (numeralsBy (if exponential then Numeral.briefest format
      else Numeral.positional format)) words
  cells.map fun cell => String.ofList <|
    match cell with
    | .finite negative magnitude =>
      writeNumeral widths
        (if exponential then Numeral.exact format negative magnitude widths.right widths.power
        else Numeral.positional format negative magnitude)
    | cell => padStart widths.width ' ' (word cell)

end ComputeArray.Column
