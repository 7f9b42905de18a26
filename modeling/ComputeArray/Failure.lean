import ComputeArray.Cells.Repeat
import ComputeArray.Text.Size
import ComputeArray.Value.Rendering

/-!
# Causes of failure

Every way an operation can fail is a constructor with what its message needs. `Failure.kind` groups
the causes into the classes callers distinguish and `Failure.message` gives the wording.
-/

set_option autoImplicit false

namespace ComputeArray

/-- The classes of failures. -/
inductive FailureKind where
  | shape
  | elementType
  | unsupported
  | deviceLost
  | compilation
  | device
  | value
  | type
  | overflow
  | index
  | key
  | zeroDivision
  | missingMember
  | memory
  | grammar
  deriving DecidableEq, Repr

/-- Where a text comes from that is no numeral: it was given by itself, or it is a cell, or it
stands for the bytes of a cell. -/
inductive TextOrigin where
  | given
  | cell
  | bytes
  deriving DecidableEq

inductive Failure where
  -- shapes and layouts
  | noAxes
  | notPositive (shape : List Int)
  | strideCount (given axes : Nat)
  | negativeStrides (strides : List Int)
  | incompatibleShapes (shapes : List (List Int))
  | cannotBroadcast (shape target : List Int)
  | cannotBroadcastAt (shape target : List Int) (axis : Nat)
  | countMismatch (values : Nat) (elements : Int)
  | cannotReshape (elements : Int) (shape : List Int)
  | cannotReshapeTable (cells : Nat) (shape : List Nat)
  | emptyRange (start stop step : Value)
  | outputShape (given needed : List Int)
  | reductionOutput (shape : List Int)
  -- element types
  | unknownElementType (given : Value)
  | incompatibleTypes (left right : String)
  | unsupportedScalar (given : Value)
  | negativeScalar (given : Value)
  | noDrawOf
  | noNormalOf (elementType : String)
  -- descriptors of cells
  | unreadableItem (position : Nat) (text : String)
  | byteOrders (first second : String)
  | malformedRepeat (fault : RepeatFault)
  | blockExtents
  | blockExtentTooLarge
  | blockTooLarge
  | openCells
  -- requests the engine does not serve
  | halfUnavailable
  | stridedReduction
  | stridedOutput
  | stridedReshape
  | partialIndex (given axes : Nat)
  -- the device
  | deviceLost (reason message : Value)
  | compilation (message code : String)
  | device (message : String)
  -- conversions
  | notNumeric (typeName : String)
  | notIndex (typeName : String)
  | notIterable (typeName : String)
  | notScalarTable
  | iterationOverScalarTable
  | badInteger (text : String) (origin : TextOrigin)
  | badDecimal (text : String) (origin : TextOrigin)
  | notANumber
  | infinity
  | beyondDouble
  | beyondWord (n : Int) (cells : String)
  | beyondMachineInteger
  | notFloatable (typeName : String)
  | notReal (typeName : String)
  | emptyTruth
  | manyTruths
  | sequenceCell
  | tooDeep
  | ragged (dimensions : List Nat)
  -- element access
  | tooManyIndices (given axes : Nat)
  | indexOutOfBounds (index : String) (axis : Nat) (extent : Int)
  | notAPosition
  -- ranges
  | divisionByZero (floating : Bool)
  | noWorkgroups
  | quotientTooLarge
  | unknownLength
  | rangeTooLarge
  | unsupportedOperands (symbol left right : String)
  | truthDifference
  | unequalShapes (left right : List Nat)
  -- operations and arguments
  | unknownOperation (tag : String)
  | isReduction (tag : String)
  | notReduction (tag : String)
  | operandCount (tag : String) (needed given : Nat)
  | noArrayOperand
  | conditionNotArray
  | missingArguments (callee : String) (names : List String)
  | excessArguments (callee : String) (least most given : Nat)
  | repeatedArgument (callee name : String)
  | unexpectedKeyword (callee name : String)
  | noAttribute (typeName member : String)
  | noClassAttribute (className member : String)
  | missingKey (key : String)
  | unhashable (typeName : String)
  -- options and seeds
  | unknownPowerPreference (given : Value)
  | workgroupSizeNotPositive (size : Int)
  | stateTooShort (given : Nat)
  | stateTooLong
  | zeroState (seed : Int)
  -- sequences
  | noEngine
  | noShapes
  | noTypes
  | strideAssignment
  -- storage
  | negativeSize
  | dimensionTooLarge
  | sizeTooLarge
  | tooManyAxes (given : Nat)
  | tooManyAxesToReshape (given : Nat)
  | outOfMemory (bytes : Nat) (shape : List Nat) (cells : String)
  deriving Inhabited

/-- Names in single quotes joined as in a sentence. -/
def nameList (names : List String) : String :=
  match names.map fun name => "'" ++ name ++ "'" with
  | [] => ""
  | [a] => a
  | [a, b] => a ++ " and " ++ b
  | many => ", ".intercalate many.dropLast ++ ", and " ++ many.getLastD ""

namespace Failure

def kind : Failure → FailureKind
  | .noAxes | .notPositive _ | .strideCount .. | .negativeStrides _ | .incompatibleShapes _
  | .cannotBroadcast .. | .cannotBroadcastAt .. | .countMismatch .. | .cannotReshape ..
  | .emptyRange .. | .outputShape .. | .reductionOutput _ => .shape
  | .unknownElementType _ | .incompatibleTypes .. | .unsupportedScalar _ | .negativeScalar _
  | .noDrawOf | .noNormalOf _ => .elementType
  | .halfUnavailable | .stridedReduction | .stridedOutput | .stridedReshape
  | .partialIndex .. => .unsupported
  | .deviceLost .. => .deviceLost
  | .compilation .. => .compilation
  | .device _ => .device
  | .notNumeric _ | .notIndex _ | .notIterable _ | .notScalarTable | .iterationOverScalarTable
  | .notFloatable _ | .notReal _ | .truthDifference | .unsupportedOperands .. | .operandCount ..
  | .noArrayOperand | .conditionNotArray | .missingArguments .. | .excessArguments ..
  | .repeatedArgument .. | .unexpectedKeyword .. | .unhashable _ => .type
  | .unreadableItem .. | .byteOrders .. | .blockExtents | .blockExtentTooLarge | .blockTooLarge
  | .openCells
  | .badInteger .. | .badDecimal .. | .notANumber | .emptyTruth | .manyTruths | .sequenceCell
  | .tooDeep | .ragged _ | .unknownLength | .rangeTooLarge | .unequalShapes ..
  | .unknownOperation _ | .isReduction _ | .notReduction _ | .unknownPowerPreference _
  | .workgroupSizeNotPositive _ | .stateTooShort _ | .stateTooLong | .zeroState _ | .noShapes
  | .negativeSize | .dimensionTooLarge | .sizeTooLarge | .tooManyAxes _
  | .tooManyAxesToReshape _ | .cannotReshapeTable .. => .value
  | .infinity | .beyondDouble | .beyondWord .. | .beyondMachineInteger | .quotientTooLarge =>
    .overflow
  | .noEngine | .tooManyIndices .. | .indexOutOfBounds .. | .notAPosition | .noTypes
  | .strideAssignment => .index
  | .divisionByZero _ | .noWorkgroups => .zeroDivision
  | .noAttribute .. | .noClassAttribute .. => .missingMember
  | .missingKey _ => .key
  | .outOfMemory .. => .memory
  | .malformedRepeat _ => .grammar

def numericMessage (typeName : String) : String :=
  "int() argument must be a string, a bytes-like object or a real number, not '" ++ typeName ++ "'"

def raggedMessage (dimensions : List Nat) : String :=
  "setting an array element with a sequence. The requested array has an inhomogeneous shape after "
    ++ toString dimensions.length ++ " dimensions. The detected shape was "
    ++ parenthesized (dimensions.map toString) ++ " + inhomogeneous part."

/-- What is wrong with repeat counts, and in which line of their text; a text without any has no
lines. -/
def repeatMessage (fault : RepeatFault) : String :=
  let wording :=
    match fault with
    | .missing => "invalid syntax"
    | .unexpected => "invalid syntax"
    | .unmatched => "unmatched ')'"
    | .unclosed => "'(' was never closed"
    | .leadingZeros =>
      "leading zeros in decimal integer literals are not permitted; use an 0o prefix for octal "
        ++ "integers"
    | .missingComma => "invalid syntax. Perhaps you forgot a comma?"
  wording ++ " (<unknown>, line " ++ (if fault = .missing then "0" else "1") ++ ")"

/-- A text that is no integer, as messages quote it. -/
def integerQuoted (text : String) (origin : TextOrigin) : String :=
  match origin with
  | .given => Text.quoted text
  | .cell => "np.str_(" ++ Text.quoted text ++ ")"
  | .bytes => "b" ++ Text.quoted text

/-- A text that is no decimal number, as messages quote it. -/
def decimalQuoted (text : String) (origin : TextOrigin) : String :=
  match origin with
  | .bytes => "np.bytes_(b" ++ Text.quoted text ++ ")"
  | origin => integerQuoted text origin

/-- Extents between parentheses without blanks, a single one followed by a comma. -/
def tightTuple (shape : List Nat) : String :=
  "(" ++ ",".intercalate (shape.map toString) ++ (if shape.length = 1 then ",)" else ")")

def lostMessage (reason message : Value) : String :=
  "GPU has been lost: \x7b message: " ++ message.inSentence ++ ", reason: "
    ++ reason.inSentence ++ " \x7d"

def missingMessage (callee : String) (names : List String) : String :=
  callee ++ "() missing " ++ toString names.length ++ " required positional argument"
    ++ (if names.length = 1 then "" else "s") ++ ": " ++ nameList names

def message : Failure → String
  | .noAxes => "shape must have at least one axis"
  | .notPositive shape => "shape must be positive: " ++ intList shape
  | .strideCount given axes => s!"strides must have same length: {given} != {axes}"
  | .negativeStrides strides => "strides must not be negative: " ++ intList strides
  | .incompatibleShapes shapes =>
    "Incompatible shapes for broadcast: " ++ ", ".intercalate (shapes.map intList)
  | .cannotBroadcast shape target =>
    "Cannot broadcast " ++ intList shape ++ " to " ++ intList target
  | .cannotBroadcastAt shape target axis =>
    "Cannot broadcast " ++ intList shape ++ " to " ++ intList target ++ s!" at axis {axis}"
  | .countMismatch values elements => s!"Cannot set {values} values into {elements} elements"
  | .cannotReshape elements shape => s!"Cannot reshape {elements} elements to " ++ intList shape
  | .cannotReshapeTable cells shape =>
    s!"cannot reshape array of size {cells} into shape " ++ tightTuple shape
  | .emptyRange start stop step =>
    "arange(" ++ ", ".intercalate ([start, stop, step].map Value.inSentence) ++ ") is empty"
  | .outputShape given needed =>
    "Output shape " ++ intList given ++ " != " ++ intList needed
  | .reductionOutput shape => "Reduction output must hold one element: " ++ intList shape
  | .unknownElementType given => "Unknown dtype: " ++ given.shown
  | .incompatibleTypes left right => "Incompatible types: " ++ left ++ " and " ++ right
  | .unsupportedScalar given => "Unsupported scalar: " ++ given.shown
  | .negativeScalar given => "Negative scalar " ++ given.plain ++ " combined with u32"
  | .noDrawOf => "next() produces u32, f32 or f16 values"
  | .noNormalOf elementType => "normal() needs a float dtype, got " ++ elementType
  | .unreadableItem position text =>
    s!"format number {position} of " ++ "\"" ++ text ++ "\" is not recognized"
  | .byteOrders first second =>
    "inconsistent byte-order specification " ++ first ++ " and " ++ second
  | .malformedRepeat fault => repeatMessage fault
  | .blockExtents => "invalid shape in fixed-type tuple."
  | .blockExtentTooLarge =>
    "invalid shape in fixed-type tuple: dimension does not fit into a C int."
  | .blockTooLarge =>
    "invalid shape in fixed-type tuple: dtype size in bytes must fit into a C int."
  | .openCells => "invalid itemsize in generic type tuple"
  | .halfUnavailable => "f16 arrays need a device with the shader-f16 feature"
  | .stridedReduction => "Custom strides are not supported on reduction inputs"
  | .stridedOutput => "Custom strides are not supported on the output"
  | .stridedReshape => "Cannot reshape an array with custom strides"
  | .partialIndex given axes => s!"Partial indexing is not supported: {given} < {axes}"
  | .deviceLost reason message => lostMessage reason message
  | .compilation message _ => message
  | .device message => message
  | .notNumeric typeName => numericMessage typeName
  | .notIndex typeName =>
    if typeName = "numpy.ndarray" then
      "only integer scalar arrays can be converted to a scalar index"
    else "'" ++ typeName ++ "' object cannot be interpreted as an integer"
  | .notIterable typeName => "'" ++ typeName ++ "' object is not iterable"
  | .notScalarTable => "only 0-dimensional arrays can be converted to Python scalars"
  | .iterationOverScalarTable => "iteration over a 0-d array"
  | .badInteger text origin =>
    "invalid literal for int() with base 10: " ++ ((integerQuoted text origin).take 200).toString
  | .badDecimal text origin =>
    "could not convert string to float: " ++ decimalQuoted text origin
  | .notANumber => "cannot convert float NaN to integer"
  | .infinity => "cannot convert float infinity to integer"
  | .beyondDouble => "int too large to convert to float"
  | .beyondWord n cells => s!"Python integer {n} out of bounds for {cells}"
  | .beyondMachineInteger => "Python int too large to convert to C long"
  | .notFloatable typeName =>
    "float() argument must be a string or a real number, not '" ++ typeName ++ "'"
  | .notReal typeName => "must be real number, not " ++ typeName
  | .emptyTruth =>
    "The truth value of an empty array is ambiguous. Use `array.size > 0` to check that an array "
      ++ "is not empty."
  | .manyTruths =>
    "The truth value of an array with more than one element is ambiguous. "
      ++ "Use a.any() or a.all()"
  | .sequenceCell => "setting an array element with a sequence."
  | .tooDeep =>
    "setting an array element with a sequence. The requested array would exceed the maximum "
      ++ "number of dimension of 64."
  | .ragged dimensions => raggedMessage dimensions
  | .tooManyIndices given axes => s!"Too many indices: {given} > {axes}"
  | .indexOutOfBounds index axis extent =>
    s!"index {index} is out of bounds for axis {axis} with size {extent}"
  | .notAPosition =>
    "only integers, slices (`:`), ellipsis (`...`), numpy.newaxis (`None`) and integer or boolean "
      ++ "arrays are valid indices"
  | .divisionByZero floating => (if floating then "float " else "") ++ "division by zero"
  | .noWorkgroups => "integer division or modulo by zero"
  | .quotientTooLarge => "integer division result too large for a float"
  | .unknownLength => "arange: cannot compute length"
  | .rangeTooLarge => "Maximum allowed size exceeded"
  | .unsupportedOperands symbol left right =>
    "unsupported operand type(s) for " ++ symbol ++ ": '" ++ left ++ "' and '" ++ right ++ "'"
  | .truthDifference =>
    "numpy boolean subtract, the `-` operator, is not supported, use the bitwise_xor, the `^` "
      ++ "operator, or the logical_xor function instead."
  | .unequalShapes left right =>
    "operands could not be broadcast together with shapes " ++ tightTuple left ++ " "
      ++ tightTuple right ++ " "
  | .unknownOperation tag => "Unknown operation: " ++ tag
  | .isReduction tag => tag ++ " is a reduction"
  | .notReduction tag => tag ++ " is not a reduction"
  | .operandCount tag needed given => tag ++ s!" takes {needed} operands, got {given}"
  | .noArrayOperand => "At least one operand must be an NDArray"
  | .conditionNotArray => "where: cond must be an NDArray"
  | .missingArguments callee names => missingMessage callee names
  | .excessArguments callee least most given =>
    callee ++ (if least = most then s!"() takes {most}" else s!"() takes from {least} to {most}")
      ++ s!" positional arguments but {given} were given"
  | .repeatedArgument callee name =>
    callee ++ "() got multiple values for argument '" ++ name ++ "'"
  | .unexpectedKeyword callee name =>
    callee ++ "() got an unexpected keyword argument '" ++ name ++ "'"
  | .noAttribute typeName member =>
    "'" ++ typeName ++ "' object has no attribute '" ++ member ++ "'"
  | .noClassAttribute className member =>
    "type object '" ++ className ++ "' has no attribute '" ++ member ++ "'"
  | .missingKey key => Text.quoted key
  | .unhashable typeName => "unhashable type: '" ++ typeName ++ "'"
  | .unknownPowerPreference given => "Unknown power_preference: " ++ given.shown
  | .workgroupSizeNotPositive size => s!"workgroup_size must be positive: {size}"
  | .stateTooShort given => s!"not enough values to unpack (expected 4, got {given})"
  | .stateTooLong => "too many values to unpack (expected 4)"
  | .zeroState seed => s!"seed {seed} expands to an all-zero state"
  | .noEngine => "list index out of range"
  | .noShapes => "max() arg is an empty sequence"
  | .noTypes => "tuple index out of range"
  | .strideAssignment => "list assignment index out of range"
  | .negativeSize => "negative dimensions are not allowed"
  | .dimensionTooLarge => "Maximum allowed dimension exceeded"
  | .sizeTooLarge =>
    "array is too big; `arr.size * arr.dtype.itemsize` is larger than the maximum possible size."
  | .tooManyAxes given => s!"number of dimensions must be within [0, 64], got {given}"
  | .tooManyAxesToReshape given =>
    s!"maximum supported dimension for an ndarray is currently 64, found {given}"
  | .outOfMemory bytes shape cells =>
    "Unable to allocate " ++ Text.binarySize bytes ++ " for an array with shape "
      ++ parenthesized (shape.map toString) ++ " and data type " ++ cells

end Failure

end ComputeArray
