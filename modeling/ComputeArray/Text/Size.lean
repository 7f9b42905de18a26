import ComputeArray.Number.Format

/-!
# Sizes in binary units

A number of bytes is written in the largest unit of which it holds at least one, with three
significant digits, or with all digits before the point if there are more.
-/

set_option autoImplicit false

namespace ComputeArray.Text

def sizeUnits : List String := ["bytes", "KiB", "MiB", "GiB", "TiB", "PiB", "EiB"]

/-- The position of the unit a size is written in. What rounds up to 1024 of a unit is written in
the next one. -/
def sizeUnit (bytes : Nat) : Nat :=
  let unit := Nat.log2 bytes / 10
  if FloatFormat.nearest bytes (twoTo (10 * unit)) = 1024 then unit + 1 else unit

/-- `num / den` with three significant digits, for quotients of at least one. -/
def threeDigits (num den : Nat) : String :=
  let scaled (places : Nat) : Nat := FloatFormat.nearest (num * tenTo places) den
  let written (places : Nat) : String :=
    let digits := Nat.toDigits 10 (scaled places)
    String.ofList
      (digits.take (digits.length - places) ++ '.' :: digits.drop (digits.length - places))
  if scaled 2 < 1000 then written 2
  else if scaled 1 < 1000 then written 1
  else written 0

def binarySize (bytes : Nat) : String :=
  let unit := sizeUnit bytes
  let number :=
    if unit = 0 then toString bytes else threeDigits bytes (twoTo (10 * unit))
  number ++ " " ++ sizeUnits.getD unit "EiB"

end ComputeArray.Text
