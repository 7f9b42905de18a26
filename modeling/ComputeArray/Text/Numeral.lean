import ComputeArray.Number.Format
import ComputeArray.Text.Blank

/-!
# Numerals

Reading integers and decimal fractions from text. Blanks around the numeral are ignored, a sign may
come first, and digits of any script may be grouped by single underscores. Each script has ten
consecutive digits, so the zeros determine all of them. The zeros are those of the Unicode 14
database.
-/

set_option autoImplicit false

namespace ComputeArray.Text

def digitZeros : List Nat :=
  [0x30, 0x660, 0x6f0, 0x7c0, 0x966, 0x9e6, 0xa66, 0xae6, 0xb66, 0xbe6, 0xc66, 0xce6, 0xd66,
   0xde6, 0xe50, 0xed0, 0xf20, 0x1040, 0x1090, 0x17e0, 0x1810, 0x1946, 0x19d0, 0x1a80, 0x1a90,
   0x1b50, 0x1bb0, 0x1c40, 0x1c50, 0xa620, 0xa8d0, 0xa900, 0xa9d0, 0xa9f0, 0xaa50, 0xabf0,
   0xff10, 0x104a0, 0x10d30, 0x11066, 0x110f0, 0x11136, 0x111d0, 0x112f0, 0x11450, 0x114d0,
   0x11650, 0x116c0, 0x11730, 0x118e0, 0x11950, 0x11c50, 0x11d50, 0x11da0, 0x16a60, 0x16ac0,
   0x16b50, 0x1d7ce, 0x1d7d8, 0x1d7e2, 0x1d7ec, 0x1d7f6, 0x1e140, 0x1e2f0, 0x1e950, 0x1fbf0]

/-- The value of a decimal digit of any script. -/
def digit? (c : Char) : Option Nat :=
  (digitZeros.find? fun start => start ≤ c.toNat && c.toNat < start + 10).map (c.toNat - ·)

/-- Around numerals, the ASCII controls that separate information are no blanks. -/
def isNumeralBlank (c : Char) : Bool := if c.toNat < 0x80 then isAsciiBlank c else isBlank c

def trimNumeral (cs : List Char) : List Char := trim isNumeralBlank cs

def splitSign : List Char → Bool × List Char
  | '-' :: rest => (true, rest)
  | '+' :: rest => (false, rest)
  | cs => (false, cs)

/-- The value of digits with single underscores between them; `due` says whether a digit must come
next. -/
def digitRun? (value : Nat) (due : Bool) : List Char → Option Nat
  | [] => if due then none else some value
  | '_' :: rest => if due then none else digitRun? value true rest
  | c :: rest =>
    match digit? c with
    | some d => digitRun? (value * 10 + d) false rest
    | none => none

def integer? (text : String) : Option Int :=
  let (negative, digits) := splitSign (trimNumeral text.toList)
  (digitRun? 0 true digits).map fun value => if negative then -(value : Int) else value

/-- A run of digits that may be missing, with the number of its digits. -/
def optionalRun? (cs : List Char) : Option (Nat × Nat) :=
  if cs.isEmpty then some (0, 0)
  else (digitRun? 0 true cs).map fun value => (value, (cs.filter (· ≠ '_')).length)

/-- `digits * 10 ^ scale` as a datum; magnitudes far outside every format are cut off. -/
def decimalDatum (negative : Bool) (digits : Nat) (scale : Int) : FloatDatum :=
  let count := (Nat.toDigits 10 digits).length
  if digits = 0 then .finite negative 0
  else if 400 < scale + count then .infinite negative
  else if scale + count < -400 then .finite negative 0
  else .finite negative (mkRat (digits * tenTo scale.toNat) (tenTo (-scale).toNat))

def lowerAscii (cs : List Char) : String := String.ofList (cs.map Char.toLower)

/-- The exact value of a decimal numeral, or what `inf`, `infinity` and `nan` name. -/
def decimal? (text : String) : Option FloatDatum :=
  let (negative, body) := splitSign (trimNumeral text.toList)
  let word := lowerAscii body
  if word = "inf" ∨ word = "infinity" then some (.infinite negative)
  else if word = "nan" then some (.nan negative FloatDatum.quietBit)
  else
    let isExponentMark (c : Char) : Bool := c = 'e' || c = 'E'
    let mantissa := body.takeWhile fun c => !isExponentMark c
    let power := body.drop mantissa.length
    let whole := mantissa.takeWhile (· ≠ '.')
    let fraction := (mantissa.drop whole.length).drop 1
    let exponent? : Option Int :=
      if power.isEmpty then some 0
      else
        let (down, digits) := splitSign (power.drop 1)
        (digitRun? 0 true digits).map fun value => if down then -(value : Int) else value
    if whole.isEmpty ∧ fraction.isEmpty then none
    else
      match optionalRun? whole, optionalRun? fraction, exponent? with
      | some (front, _), some (back, backCount), some exponent =>
        some (decimalDatum negative (front * tenTo backCount + back) (exponent - backCount))
      | _, _, _ => none

end ComputeArray.Text
