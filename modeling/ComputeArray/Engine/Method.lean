import ComputeArray.Engine.Reduce
import ComputeArray.Signature

/-!
# Operations as methods

Each operation is offered under its name, with the operands as positional parameters and the output
as an optional one.
-/

set_option autoImplicit false

namespace ComputeArray

namespace Operation

/-- The operations offered by name: those of the table and the choice. -/
def method? (name : String) : Option Operation :=
  if name = "where" then some choice else find? name

def signature (operation : Operation) (name : String) : Signature :=
  ⟨"GPUBackend." ++ name, operation.template.operands, [("out", .none)]⟩

end Operation

namespace Action

/-- The output given by name, if there is one. -/
def namedOutput (out : Option Value) : List (String × Value) :=
  out.toList.map fun value => ("out", value)

/-- Runs the operation of a name on arguments. -/
def call (name : String) (arguments : List Value) (out : Option Value) : Action Nat := do
  match Operation.method? name with
  | none => throw (.noAttribute "GPUBackend" name)
  | some operation =>
    let values ← ofExcept ((operation.signature name).bind arguments (namedOutput out))
    let operands := values.dropLast
    let out := values.getLastD .none
    match operation.template, operands with
    | .choice, [condition, yes, no] => choose condition yes no out
    | _, operands =>
      if operation.template.isFold then reduce name (operands.headD .none) out
      else elementwise name operands out

/-- The generic entry for reductions: the operation's name, the array and the output. -/
def callReduce (tag : String) (arguments : List Value) (out : Option Value) : Action Nat := do
  let signature : Signature := ⟨"GPUBackend.reduce", ["tag", "arg"], [("out", .none)]⟩
  let values ← ofExcept (signature.bind (.text tag :: arguments) (namedOutput out))
  reduce tag (values.getD 1 .none) (values.getD 2 .none)

/-- The tag of an arithmetic symbol. -/
def symbolTag? (symbol : String) : Option String :=
  match symbol with
  | "+" => some "add"
  | "-" => some "sub"
  | "*" => some "mul"
  | "/" => some "div"
  | _ => none

/-- What a table without axes holds, as it is outside a table. -/
def unboxed : Value → Value
  | .table .boolean [] [.int n] => .bool (n ≠ 0)
  | .table _ [] [cell] => cell
  | value => value

/-- An arithmetic symbol between operands of which one is an array. A table on the left gives what
it holds to the array. -/
def arithmetic (symbol : String) (left right : Value) : Action Nat := do
  match symbolTag? symbol, Value.arrays [left, right] with
  | some tag, _ :: _ => elementwise tag [unboxed left, right] .none
  | _, _ => throw (.unsupportedOperands symbol left.typeName right.typeName)

end Action

end ComputeArray
