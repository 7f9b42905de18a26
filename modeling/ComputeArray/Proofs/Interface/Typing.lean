import ComputeArray.Kernel.Fold
import ComputeArray.Kernel.Stream
import ComputeArray.Proofs.Kernel.Operation
import ComputeArray.Proofs.Launch.Plan

/-!
# Types of expressions

The shading language converts nothing unasked: the operands of an operator have the type of its
result, and so have the arguments of a function of the table. `Kernel.HasType` has one rule for each
way in which the engine's kernels come by a value. What an operation makes of typed values has the
type it is computed in (`hasType_applied`, `hasType_chosen`).
-/

set_option autoImplicit false

namespace ComputeArray

open Kernel

/-- The expression has an element type in the scope of a kernel. -/
inductive Kernel.HasType (kernel : Kernel) : Expression → ElementType → Prop where
  | override {name : String} {type : ElementType}
      (declared : .parameter name type.name ∈ kernel.items) : HasType kernel (.name name) type
  | element {slot : Option Int} {access : Access} {array : String} {position : Expression}
      {type : ElementType} (declared : .array slot access array type.name ∈ kernel.items) :
      HasType kernel (.index array position) type
  /-- A name of a lane that is defined with its type. -/
  | defined {size : Int} {body : List Statement} {name : String} {type : ElementType}
      {value : Expression} (entry : .lanes size body ∈ kernel.items)
      (defined : .define name (some type.name) value ∈ body) : HasType kernel (.name name) type
  /-- A variable of a lane has the type of what it is first set to. -/
  | variable {size : Int} {body : List Statement} {name : String} {type : ElementType}
      {value : Expression} (entry : .lanes size body ∈ kernel.items)
      (declared : .declare name none value ∈ body) (first : HasType kernel value type) :
      HasType kernel (.name name) type
  | group {inner : Expression} {type : ElementType} (inside : HasType kernel inner type) :
      HasType kernel (.group inner) type
  /-- The name of a type converts to it from any type. -/
  | converted {inner : Expression} {source type : ElementType}
      (inside : HasType kernel inner source) : HasType kernel (.call type.name [inner]) type
  | constant {digits : String} {type : ElementType} :
      HasType kernel (.call type.name [.literal digits]) type
  | operator {tag : String} {operation : Operation} {left right : Expression} {type : ElementType}
      (listed : Operation.find? tag = some operation)
      (form : operation.template = .operator ∨ operation.template = .foldOperator)
      (first : HasType kernel left type) (second : HasType kernel right type) :
      HasType kernel (.binary operation.symbol left right) type
  /-- Some functions of the table are for floats only. -/
  | function {tag : String} {operation : Operation} {arguments : List Expression}
      {type : ElementType} (listed : Operation.find? tag = some operation)
      (form : operation.template ≠ .operator ∧ operation.template ≠ .foldOperator)
      (float : operation.floatOnly = true → type.isFloat = true)
      (all : ∀ argument ∈ arguments, HasType kernel argument type) :
      HasType kernel (.call operation.symbol arguments) type
  /-- The choice compares its condition with a zero of the condition's own type. -/
  | choice {condition zero yes no : Expression} {test type : ElementType}
      (compared : HasType kernel condition test) (against : HasType kernel zero test)
      (first : HasType kernel yes type) (second : HasType kernel no type) :
      HasType kernel (.call "select" [no, yes, .binary "!=" condition zero]) type
  /-- A function the kernel itself has. -/
  | called {definition : Function} {parameter : String} {argument : Expression}
      {source type : ElementType} (known : .function definition ∈ kernel.items)
      (parameters : definition.parameters = [(parameter, source.name)])
      (result : definition.result = some type.name) (given : HasType kernel argument source) :
      HasType kernel (.call definition.name [argument]) type

/-- Each lane stores the value in the cell of an array at its own number. -/
def Kernel.Stores (kernel : Kernel) (array : String) (value : Expression) : Prop :=
  ∃ size body, Item.lanes size body ∈ kernel.items ∧ .assign (.index array lane) value ∈ body

namespace Kernel.HasType

variable {kernel : Kernel} {type : ElementType}

theorem name_ne_empty (type : ElementType) : type.name ≠ "" := by
  cases type <;> decide

/-- A value converted from one type to another. -/
theorem convert {inner : Expression} {source : ElementType} (h : kernel.HasType inner source)
    (target : ElementType) :
    kernel.HasType (.convert (OperandPlan.conversion source target) inner) target := by
  unfold Expression.convert OperandPlan.conversion
  by_cases hsame : source = target
  · subst hsame
    rw [if_pos rfl, if_pos rfl]
    exact .group h
  · rw [if_neg hsame, if_neg (name_ne_empty target)]
    exact .converted h

/-- What an operation of the table makes of values of one type. -/
theorem applied {tag : String} {operation : Operation} {operands : List Operand}
    {values : List Expression} (hfind : Operation.find? tag = some operation)
    (hfold : operation.template.isFold = false)
    (hfloat : operation.floatOnly = true → type.isFloat = true)
    (hcount : values.length = operation.template.operands.length)
    (hvalues : ∀ value ∈ values, kernel.HasType value type) :
    kernel.HasType (operation.applied operands values) type := by
  obtain ⟨hchoice, -, -⟩ := Operation.table_symbols _ (mem_of_lookup hfind)
  by_cases hoperator : operation.template = .operator
  · have happlied : operation.applied operands = Elementwise.joined operation.symbol := by
      simp only [Operation.applied, hoperator]
    rw [hoperator] at hcount
    obtain ⟨left, right, rfl⟩ := List.length_eq_two.mp hcount
    rw [happlied]
    exact .operator hfind (.inl hoperator) (hvalues left (by simp)) (hvalues right (by simp))
  · have happlied : operation.applied operands = .call operation.symbol := by
      unfold Operation.applied
      split
      · next heq => exact absurd heq hoperator
      · next heq => exact absurd heq hchoice
      · rfl
    have hfoldOperator : operation.template ≠ .foldOperator := by
      intro heq
      rw [heq] at hfold
      cases hfold
    rw [happlied]
    exact .function hfind ⟨hoperator, hfoldOperator⟩ hfloat hvalues

/-- What the choice makes of a condition and two values of one type. -/
theorem chosen {element test : ElementType} {slot : Option Int} {yes no : Operand}
    {condition first second : Expression} (hcondition : kernel.HasType condition test)
    (hfirst : kernel.HasType first type) (hsecond : kernel.HasType second type) :
    kernel.HasType (Operation.choice.applied
      [⟨slot, element.name, OperandPlan.conversion element test⟩, yes, no]
        [condition, first, second]) type := by
  refine .choice hcondition ?_ hfirst hsecond
  unfold Elementwise.zeroOf OperandPlan.conversion
  by_cases hsame : element = test
  · subst hsame
    rw [if_pos rfl, if_pos rfl]
    exact .constant
  · rw [if_neg hsame, if_neg (name_ne_empty test)]
    exact .constant

end Kernel.HasType

end ComputeArray
