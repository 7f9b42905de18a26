import ComputeArray.Proofs.Kernel.Elementwise
import ComputeArray.Proofs.Lookup

/-!
# Operations as functions of elements

`Operation.combine` is what an elementwise operation makes of the elements of its operands, and the
bodies of the kernels compute it (`kernel_eq`).
-/

set_option autoImplicit false

namespace ComputeArray

open Kernel Elementwise Machine

variable {α : Type} {machine : Machine α} {state : State α}

namespace Kernel.Machine

theorem evalAll_eq_cons {expressions : List Expression} {value : Datum α}
    {values : List (Datum α)} (h : machine.evalAll state expressions = some (value :: values)) :
    ∃ first rest, expressions = first :: rest ∧ machine.eval state first = some value ∧
      machine.evalAll state rest = some values := by
  cases expressions with
  | nil =>
    rw [evalAll] at h
    cases h
  | cons first rest =>
    rw [evalAll] at h
    obtain ⟨found, hfirst, h⟩ := Option.bind_eq_some_iff.mp h
    obtain ⟨later, hrest, h⟩ := Option.bind_eq_some_iff.mp h
    cases h
    exact ⟨first, rest, rfl, hfirst, hrest⟩

theorem evalAll_eq_nil {expressions : List Expression}
    (h : machine.evalAll state expressions = some []) : expressions = [] := by
  cases expressions with
  | nil => rfl
  | cons first rest =>
    rw [evalAll] at h
    obtain ⟨found, -, h⟩ := Option.bind_eq_some_iff.mp h
    obtain ⟨later, -, h⟩ := Option.bind_eq_some_iff.mp h
    cases h

end Kernel.Machine

namespace Operation

/-- The zero that conditions are compared with, in the type of the condition. -/
def zero (machine : Machine α) (condition : Operand) : α :=
  machine.function (if condition.conversion = "" then condition.type else condition.conversion)
    [.word 0]

/-- What an elementwise operation makes of the elements of its operands. -/
def combine (machine : Machine α) (operation : Operation) (operands : List Operand)
    (values : List α) : α :=
  match operation.template, operands, values with
  | .operator, _, [left, right] => machine.operator operation.symbol left right
  | .choice, condition :: _, [test, yes, no] =>
    machine.function "select"
      [.element no, .element yes, .truth (machine.differs test (zero machine condition))]
  | _, _, values => machine.function operation.symbol (values.map .element)

/-- The operations on elements: those of the table that do not fold, and the choice. -/
def IsElementwise (operation : Operation) : Prop :=
  (operation.template.isFold = false ∧ ∃ tag, find? tag = some operation) ∨ operation = choice

theorem table_symbols : ∀ entry ∈ table,
    entry.2.template ≠ .choice ∧ entry.2.symbol ≠ "!=" ∧ entry.2.symbol ≠ "arrayLength" := by
  decide

/-! ### Results of kernels -/

theorem computes_joined {symbol : String} (h : symbol ≠ "!=") (operation : Operation)
    (htemplate : operation.template = .operator) (hsymbol : operation.symbol = symbol)
    (operands : List Operand) :
    Computes machine (joined symbol) (operation.combine machine operands) 2 := by
  intro state expressions values hlength hvalues
  match values, hlength with
  | [left, right], _ =>
    obtain ⟨first, rest, rfl, hfirst, hrest⟩ := evalAll_eq_cons hvalues
    obtain ⟨second, rest, rfl, hsecond, hrest⟩ := evalAll_eq_cons hrest
    obtain rfl := evalAll_eq_nil hrest
    rw [joined, eval, hfirst, hsecond]
    simp only [combine, htemplate, hsymbol]
    exact if_neg h

theorem computes_call {symbol : String} (h : symbol ≠ "arrayLength") (operation : Operation)
    (hsymbol : operation.symbol = symbol) (hoperator : operation.template ≠ .operator)
    (hchoice : operation.template ≠ .choice) (operands : List Operand) (count : Nat) :
    Computes machine (.call symbol) (operation.combine machine operands) count := by
  intro state expressions values _ hvalues
  rw [eval_call h hvalues]
  have hcombine : operation.combine machine operands values =
      machine.function operation.symbol (values.map .element) := by
    unfold combine
    split
    · next heq _ => exact absurd heq hoperator
    · next heq _ => exact absurd heq hchoice
    · rfl
  rw [hcombine, hsymbol]

theorem computes_chosen {condition : Operand}
    (htype : (if condition.conversion = "" then condition.type else condition.conversion) ≠
      "arrayLength") (operands : List Operand) :
    Computes machine (chosen (zeroOf condition))
      (choice.combine machine (condition :: operands)) 3 := by
  intro state expressions values hlength hvalues
  match values, hlength with
  | [test, yes, no], _ =>
    obtain ⟨first, rest, rfl, hfirst, hrest⟩ := evalAll_eq_cons hvalues
    obtain ⟨second, rest, rfl, hsecond, hrest⟩ := evalAll_eq_cons hrest
    obtain ⟨third, rest, rfl, hthird, hrest⟩ := evalAll_eq_cons hrest
    obtain rfl := evalAll_eq_nil hrest
    have hzero : machine.eval state (zeroOf condition) =
        some (.element (zero machine condition)) := by
      refine eval_call htype ?_
      rw [evalAll, eval, evalAll]
      rfl
    have htest : machine.eval state (.binary "!=" first (zeroOf condition)) =
        some (.truth (machine.differs test (zero machine condition))) := by
      rw [eval, hfirst, hzero]
      rfl
    refine eval_call (by decide) ?_
    rw [evalAll, evalAll, evalAll, evalAll, hthird, hsecond, htest]
    rfl

/-- What an elementwise operation makes of the values of its operands, as it is written. -/
def applied (operation : Operation) (operands : List Operand) : List Expression → Expression :=
  match operation.template, operands with
  | .operator, _ => joined operation.symbol
  | .choice, condition :: _ => chosen (zeroOf condition)
  | _, _ => .call operation.symbol

/-- The kernel of an operation on as many operands as it takes. -/
theorem kernel_eq_applied {operation : Operation} {size : Int} {operands : List Operand}
    {out : Operand} {strides : Option StrideSlots}
    (hcount : operands.length = operation.template.operands.length) :
    operation.kernel size operands out strides =
      Elementwise.kernel size (operation.template.operands.zip operands) out
        (operation.applied operands) strides := by
  unfold Operation.kernel applied
  cases htemplate : operation.template with
  | operator =>
    rw [htemplate] at hcount
    match operands, hcount with
    | [left, right], _ => rfl
  | unary =>
    rw [htemplate] at hcount
    match operands, hcount with
    | [argument], _ => rfl
  | binary =>
    rw [htemplate] at hcount
    match operands, hcount with
    | [first, second], _ => rfl
  | choice =>
    rw [htemplate] at hcount
    match operands, hcount with
    | [condition, yes, no], _ => rfl
  | foldOperator => rfl
  | foldFunction => rfl

theorem computes_applied {operation : Operation} (h : operation.IsElementwise)
    {operands : List Operand} (hcount : operands.length = operation.template.operands.length)
    (htypes : ∀ operand ∈ operands,
      operand.type ≠ "arrayLength" ∧ operand.conversion ≠ "arrayLength") :
    Computes machine (operation.applied operands) (operation.combine machine operands)
      operands.length := by
  rcases h with ⟨hfold, tag, hfind⟩ | rfl
  · obtain ⟨hchoice, hoperator, hfunction⟩ := table_symbols _ (mem_of_lookup hfind)
    by_cases htemplate : operation.template = .operator
    · have happlied : operation.applied operands = joined operation.symbol := by
        simp only [applied, htemplate]
      have htwo : operands.length = 2 := by
        rw [hcount, htemplate]
        rfl
      rw [happlied, htwo]
      exact computes_joined hoperator operation htemplate rfl operands
    · have happlied : operation.applied operands = .call operation.symbol := by
        unfold applied
        split
        · next heq => exact absurd heq htemplate
        · next heq => exact absurd heq hchoice
        · rfl
      rw [happlied]
      exact computes_call hfunction operation rfl htemplate hchoice _ _
  · match operands, hcount with
    | [condition, yes, no], _ =>
      obtain ⟨htype, hconversion⟩ := htypes condition (by simp)
      refine computes_chosen ?_ [yes, no]
      split
      · exact htype
      · exact hconversion

/-- The kernel of an elementwise operation has a body that computes the operation. -/
theorem kernel_eq {operation : Operation} (h : operation.IsElementwise) {size : Int}
    {operands : List Operand} {out : Operand} {strides : Option StrideSlots}
    (hcount : operands.length = operation.template.operands.length)
    (htypes : ∀ operand ∈ operands,
      operand.type ≠ "arrayLength" ∧ operand.conversion ≠ "arrayLength") :
    ∃ result, operation.kernel size operands out strides =
        Elementwise.kernel size (operation.template.operands.zip operands) out result strides ∧
      Computes machine result (operation.combine machine operands) operands.length :=
  ⟨_, kernel_eq_applied hcount, computes_applied h hcount htypes⟩

end Operation

end ComputeArray
