import ComputeArray.Signature

/-!
# Classes of failures

The classes callers can raise and catch. Each belongs to wider classes, is made from arguments, and
gives back what it was made from.
-/

set_option autoImplicit false

namespace ComputeArray

inductive FailureClass where
  | general
  | shape
  | elementType
  | unsupported
  | deviceLost
  | compilation
  deriving DecidableEq

namespace FailureClass

def name : FailureClass → String
  | .general => "GPUArrayError"
  | .shape => "ShapeError"
  | .elementType => "DTypeError"
  | .unsupported => "UnsupportedError"
  | .deviceLost => "DeviceLostError"
  | .compilation => "ShaderCompilationError"

def all : List FailureClass :=
  [.general, .shape, .elementType, .unsupported, .deviceLost, .compilation]

def ofName? (name : String) : Option FailureClass := all.find? (·.name = name)

/-- The wider classes from outside the family. -/
def outer : FailureClass → List String
  | .general => ["Exception"]
  | .shape => ["Exception", "ValueError"]
  | .elementType => ["Exception", "TypeError"]
  | .unsupported => ["Exception", "NotImplementedError", "RuntimeError"]
  | .deviceLost => ["Exception", "RuntimeError"]
  | .compilation => ["Exception", "RuntimeError"]

/-- All classes an instance belongs to. -/
def memberships (failureClass : FailureClass) : List String :=
  failureClass.outer ++ [FailureClass.general.name]
    ++ (if failureClass = .general then [] else [failureClass.name])

end FailureClass

/-- What an instance of a class shows. -/
structure FailureInstance where
  memberships : List String
  message : Value
  reason : Option Value
  code : Option Value

namespace FailureClass

/-- The text of an instance made from any arguments: nothing, the one argument, or all of them. -/
def textOf : List Value → String
  | [] => ""
  | [argument] => argument.plain
  | arguments => parenthesized (arguments.map Value.shown)

def signature (failureClass : FailureClass) : Signature :=
  match failureClass with
  | .deviceLost => ⟨"DeviceLostError.__init__", ["reason"], [("message", .text "")]⟩
  | _ => ⟨"ShaderCompilationError.__init__", ["message"], [("code", .text "")]⟩

def instantiate (failureClass : FailureClass) (arguments : List Value) :
    Except Failure FailureInstance := do
  match failureClass with
  | .deviceLost =>
    let values ← failureClass.signature.bind arguments []
    return ⟨failureClass.memberships, values.getD 1 .none, values.head?, none⟩
  | .compilation =>
    let values ← failureClass.signature.bind arguments []
    return ⟨failureClass.memberships, .text (values.getD 0 .none).plain, none, values[1]?⟩
  | _ => return ⟨failureClass.memberships, .text (textOf arguments), none, none⟩

end FailureClass

end ComputeArray
