import ComputeArray.Element.Basic
import ComputeArray.Value.Scalar

/-!
# Promotion of element types

Two equal types combine to themselves, a single precision float absorbs every other type, a half
precision float every integer, and two different integer types do not combine. The rules need only
the names of the four types, so they are stated for any spelling of them: element types themselves,
or texts among which names outside the four may occur.
-/

set_option autoImplicit false

namespace ComputeArray

/-- How the four element types are spelled in `α`, and how a spelling is written in messages. -/
structure Spelling (α : Type) where
  i32 : α
  u32 : α
  f16 : α
  f32 : α
  text : α → String

namespace Spelling

def elements : Spelling ElementType := ⟨.i32, .u32, .f16, .f32, ElementType.name⟩

def texts : Spelling String := ⟨"i32", "u32", "f16", "f32", id⟩

variable {α : Type} [DecidableEq α] (names : Spelling α)

def isFloat (a : α) : Bool := a = names.f16 || a = names.f32

def promote (a b : α) : Except Failure α :=
  if a = b then .ok a
  else if a = names.f32 ∨ b = names.f32 then .ok names.f32
  else if a = names.f16 ∨ b = names.f16 then .ok names.f16
  else .error (.incompatibleTypes (names.text a) (names.text b))

/-- The promotion of a nonempty list, from left to right. -/
def resultType : List α → Except Failure α
  | [] => .error .noTypes
  | a :: rest => rest.foldlM names.promote a

/-- Whether a scalar is a whole number; integers beyond the doubles cannot be asked. -/
def wholeScalar (scalar : Scalar) : Except Failure Bool := do
  return (← scalar.toDouble).isWhole

/-- The type a scalar takes beside an operand of type `other`: that type, except that a fraction
lifts integers to single precision. -/
def scalarType (value : Value) (other : Option α) : Except Failure α := do
  match Scalar.ofValue? value, other with
  | none, _ => throw (.unsupportedScalar value)
  | some scalar, none => return if scalar.isFloat then names.f32 else names.i32
  | some scalar, some other =>
    if names.isFloat other then return other
    if !(← wholeScalar scalar) then return names.f32
    if other = names.u32 ∧ scalar.isNegative then throw (.negativeScalar scalar.toValue)
    return other

end Spelling

end ComputeArray
