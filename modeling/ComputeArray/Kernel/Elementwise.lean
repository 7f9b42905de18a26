import ComputeArray.Failure
import ComputeArray.Kernel.Operand

/-!
# Elementwise kernels

Each lane computes one element of the output. In the direct form a lane reads every input at its own
number. In the strided form it first takes its number apart by the strides of the output, from the
last axis to the first, and walks each input by that input's own strides.
-/

set_option autoImplicit false

namespace ComputeArray.Kernel.Elementwise

/-- The slots of the stride buffers, by operand. -/
abbrev StrideSlots := List (String × Option Int)

def offsetName (name : String) : String := name ++ "_at"

def stridesName (name : String) : String := name ++ "_strides"

/-- One statement for each name, or a blank line if there are none. -/
def forEach (names : List String) (statement : String → Statement) : List Statement :=
  if names.isEmpty then [.blank] else names.map statement

/-- Moves the offset of an input by `steps` along the axis at `position`. -/
def advanceOffset (steps : String) (position : Expression) (name : String) : Statement :=
  .update "+" (.name (offsetName name))
    (.binary "*" (.name steps) (.index (stridesName name) position))

/-- The position of the axis before the one the walk is at. -/
def outerAxis : Expression := .binary "-" (.name "s") (.word 1)

/-- One axis of the walk: the number of steps along it is taken off the rest. -/
def walkRound (names : List String) : List Statement :=
  [.define "r" (some "u32")
      (.binary "%" (.name "rest") (.index (stridesName "out") outerAxis)),
    .define "k" (some "u32") (.binary "/" (.name "r") (.index (stridesName "out") (.name "s")))]
    ++ forEach names (advanceOffset "k" (.name "s"))
    ++ [.update "-" (.name "rest") (.name "r")]

/-- The walk that finds the offset of each input from the number of the lane. -/
def walk (names : List String) : List Statement :=
  [.blank, .declare "rest" (some "u32") lane]
    ++ forEach names (fun name => .declare (offsetName name) (some "u32") (.word 0))
    ++ [.loop "s" (.binary "-" (.arrayLength (stridesName "out")) (.word 1))
          (.binary ">" (.name "s") (.word 0)) outerAxis (walkRound names),
      .define "k0" (some "u32")
        (.binary "/" (.name "rest") (.index (stridesName "out") (.literal "0")))]
    ++ forEach names (advanceOffset "k0" (.literal "0"))
    ++ [.blank]

def strideItem (slots : StrideSlots) (name : String) : Except Failure Item :=
  match slots.lookup name with
  | some slot => .ok (.array slot .read (stridesName name) "u32")
  | none => .error (.missingKey name)

/-- The inputs that are arrays. -/
def arrayInputs (inputs : List (String × Operand)) : List (String × Operand) :=
  inputs.filter fun (_, operand) => !operand.isScalar

/-- Where a lane reads an input. -/
def position (strided : Bool) (name : String) : Expression :=
  if strided then .name (offsetName name) else lane

/-- What a lane does: it stores `result` of the inputs' values into the output. -/
def body (size : Int) (inputs : List (String × Operand)) (out : Operand)
    (result : List Expression → Expression) (strided : Bool) : List Statement :=
  let values := inputs.map fun (name, operand) => operand.value name (position strided name)
  [laneNumber size, .stop (beyond "out")]
    ++ (if strided then walk ((arrayInputs inputs).map Prod.fst) else [.blank])
    ++ [.assign (.index "out" lane) (.convert out.conversion (result values))]

/-- The kernel that stores `result` of the inputs' values into the output. -/
def kernel (size : Int) (inputs : List (String × Operand)) (out : Operand)
    (result : List Expression → Expression) (strides : Option StrideSlots) :
    Except Failure Kernel := do
  let arrays := arrayInputs inputs
  let strideItems ←
    match strides with
    | none => pure []
    | some slots => (arrays.map Prod.fst ++ ["out"]).mapM (strideItem slots)
  return ⟨[preamble (arrays.map Prod.snd ++ [out])]
    ++ inputs.map (fun (name, operand) => operand.item name .read)
    ++ [out.item "out" .readWrite]
    ++ strideItems
    ++ [.blank, .lanes size (body size inputs out result strides.isSome)]⟩

/-- Two values joined by an operator. -/
def joined (symbol : String) : List Expression → Expression
  | [left, right] => .binary symbol left right
  | values => .call symbol values

/-- The second value where the first is not zero, else the third. -/
def chosen (zero : Expression) : List Expression → Expression
  | [condition, yes, no] => .call "select" [no, yes, .binary "!=" condition zero]
  | values => .call "select" values

def ofOperator (symbol : String) (size : Int) (left right out : Operand)
    (strides : Option StrideSlots) : Except Failure Kernel :=
  kernel size [("lhs", left), ("rhs", right)] out (joined symbol) strides

def ofUnary (function : String) (size : Int) (argument out : Operand)
    (strides : Option StrideSlots) : Except Failure Kernel :=
  kernel size [("arg", argument)] out (.call function) strides

def ofBinary (function : String) (size : Int) (first second out : Operand)
    (strides : Option StrideSlots) : Except Failure Kernel :=
  kernel size [("arg0", first), ("arg1", second)] out (.call function) strides

def zeroOf (operand : Operand) : Expression :=
  .call (if operand.conversion = "" then operand.type else operand.conversion) [.literal "0"]

def ofChoice (size : Int) (condition yes no out : Operand)
    (strides : Option StrideSlots) : Except Failure Kernel :=
  kernel size [("cond", condition), ("x", yes), ("y", no)] out (chosen (zeroOf condition)) strides

end ComputeArray.Kernel.Elementwise
