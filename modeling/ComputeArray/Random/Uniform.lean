import ComputeArray.Element.Cell

/-!
# Uniform floats from words

The high bits of a word, put under the exponent of one, make a float in [1, 2); subtracting one from
it is exact and leaves a float in [0, 1).
-/

set_option autoImplicit false

namespace ComputeArray.Random

/-- The bits of a float of the format with the high bits of a word as its significand. -/
def transplant (format : FloatFormat) (word : UInt32) : Nat :=
  word.toNat >>> (33 - format.precision) ||| format.bias <<< (format.precision - 1)

/-- The bits of the float in the unit interval a word stands for. -/
def unitFloat (format : FloatFormat) (word : UInt32) : Nat :=
  format.encode ((format.decode (transplant format word)).sub (.ofInt 1))

/-- The unit floats of a word or a nested sequence of words, as a table in the format. -/
def unitFloats (format : FloatFormat) (value : Value) : Except Failure Value := do
  let shape ← value.nestedShape
  let words ← ElementType.u32.storeAll value
  return .table (.float format) shape (words.map fun word =>
    .float (.ofDatum (format.decode (unitFloat format word.toUInt32))))

end ComputeArray.Random
