import ComputeArray.Engine.Launch
import Mathlib.Data.List.Forall2

/-!
# Plans of operands

Going through the operands of an operation gives each array a slot of its own and each scalar a
constant under the operand's name (`planned_of_foldlM`). What has been planned for one operand stays
as it is when later ones are added.
-/

set_option autoImplicit false

namespace ComputeArray.OperandPlan

variable {engine : Engine} {plan next last : OperandPlan}

/-- What a plan holds for an operand that is computed in a type. -/
inductive Planned (engine : Engine) (plan : OperandPlan) :
    String × Value × ElementType → Kernel.Operand → Prop where
  | array {name : String} {buffer slot : Nat} {described : String} {target : ElementType}
      (bound : plan.bindings[slot]? = some (.array buffer, .read)) :
      Planned engine plan (name, .array buffer described, target)
        ⟨some slot, (engine.array buffer).element.name,
          conversion (engine.array buffer).element target⟩
  | scalar {name : String} {value constant : Value} {target : ElementType}
      (noArray : ∀ buffer described, value ≠ .array buffer described)
      (stored : constantOf target value = .ok constant)
      (listed : plan.constants.lookup name = some constant) :
      Planned engine plan (name, value, target) (scalarOperand target)

/-- A plan that was extended: its slots and its constants are still there. -/
structure Extends (plan next : OperandPlan) : Prop where
  bindings : plan.bindings <+: next.bindings
  constants : ∀ name constant, plan.constants.lookup name = some constant →
    next.constants.lookup name = some constant

namespace Extends

theorem refl (plan : OperandPlan) : Extends plan plan := ⟨List.prefix_rfl, fun _ _ h ↦ h⟩

theorem trans (hfirst : Extends plan next) (hlast : Extends next last) : Extends plan last :=
  ⟨hfirst.bindings.trans hlast.bindings,
    fun name constant h ↦ hlast.constants name constant (hfirst.constants name constant h)⟩

end Extends

theorem Planned.extends {item : String × Value × ElementType} {operand : Kernel.Operand}
    (h : Planned engine plan item operand) (hextends : Extends plan next) :
    Planned engine next item operand := by
  cases h with
  | array bound =>
    obtain ⟨later, hlater⟩ := hextends.bindings
    refine .array ?_
    rw [← hlater, List.getElem?_append_left (List.getElem?_eq_some_iff.mp bound).1]
    exact bound
  | scalar noArray stored listed =>
    exact .scalar noArray stored (hextends.constants _ _ listed)

/-- An array gets the next slot, and any other value becomes a constant. -/
theorem add_cases {name : String} {value : Value} {target : ElementType}
    (h : plan.add engine name value target = .ok next) :
    (∃ buffer described, value = .array buffer described ∧
      next = { plan with
        operands := plan.operands ++ [⟨some plan.bindings.length,
          (engine.array buffer).element.name, conversion (engine.array buffer).element target⟩]
        bindings := plan.bindings ++ [(.array buffer, .read)] }) ∨
    ((∀ buffer described, value ≠ .array buffer described) ∧
      ∃ constant, constantOf target value = .ok constant ∧
        next = { plan with
          operands := plan.operands ++ [scalarOperand target]
          constants := plan.constants ++ [(name, constant)] }) := by
  by_cases harray : ∃ buffer described, value = .array buffer described
  · obtain ⟨buffer, described, rfl⟩ := harray
    cases h
    exact .inl ⟨buffer, described, rfl, rfl⟩
  · have hvalue : ∀ buffer described, value ≠ .array buffer described :=
      fun buffer described heq ↦ harray ⟨buffer, described, heq⟩
    have hadd : plan.add engine name value target =
        (constantOf target value).map fun constant ↦
          { plan with
            operands := plan.operands ++ [scalarOperand target]
            constants := plan.constants ++ [(name, constant)] } := by
      cases value with
      | array buffer described => exact absurd rfl (hvalue buffer described)
      | _ => rfl
    rw [hadd] at h
    cases hconstant : constantOf target value with
    | error failure =>
      rw [hconstant] at h
      cases h
    | ok constant =>
      rw [hconstant] at h
      cases h
      exact .inr ⟨hvalue, constant, rfl, rfl⟩

/-- Adding an operand whose name is new. -/
theorem planned_of_add {name : String} {value : Value} {target : ElementType}
    (h : plan.add engine name value target = .ok next)
    (hnew : plan.constants.lookup name = none) :
    ∃ operand, next.operands = plan.operands ++ [operand] ∧
      Planned engine next (name, value, target) operand ∧ Extends plan next ∧
      ∀ other, other ≠ name → next.constants.lookup other = plan.constants.lookup other := by
  rcases add_cases h with ⟨buffer, described, rfl, rfl⟩ | ⟨hvalue, constant, hconstant, rfl⟩
  · refine ⟨_, rfl, .array ?_, ⟨List.prefix_append _ _, fun _ _ h ↦ h⟩, fun _ _ ↦ rfl⟩
    exact List.getElem?_concat_length
  · have hother (other : String) (hne : other ≠ name) :
        (plan.constants ++ [(name, constant)]).lookup other = plan.constants.lookup other := by
      rw [List.lookup_append, List.lookup_cons, beq_eq_false_iff_ne.mpr hne]
      exact Option.or_none
    refine ⟨_, rfl, .scalar hvalue hconstant ?_, ⟨List.prefix_rfl, fun other found h ↦ ?_⟩, hother⟩
    · rw [List.lookup_append, hnew, List.lookup_cons, beq_self_eq_true]
      rfl
    · rw [List.lookup_append, h]
      rfl

/-- Going through operands of different names plans each of them. -/
theorem planned_of_foldlM {items : List (String × Value × ElementType)}
    (h : items.foldlM (fun plan (name, value, element) ↦ plan.add engine name value element) plan =
      .ok last)
    (hnodup : (items.map Prod.fst).Nodup)
    (hnew : ∀ name ∈ items.map Prod.fst, plan.constants.lookup name = none) :
    ∃ operands, last.operands = plan.operands ++ operands ∧
      List.Forall₂ (Planned engine last) items operands ∧ Extends plan last := by
  induction items generalizing plan with
  | nil =>
    cases h
    exact ⟨[], (List.append_nil _).symm, .nil, .refl _⟩
  | cons item rest ih =>
    obtain ⟨name, value, target⟩ := item
    rw [List.map_cons, List.nodup_cons] at hnodup
    rw [List.foldlM_cons] at h
    cases hadd : plan.add engine name value target with
    | error failure =>
      simp only [hadd] at h
      cases h
    | ok next =>
      simp only [hadd] at h
      obtain ⟨operand, hoperands, hplanned, hextends, hothers⟩ :=
        planned_of_add hadd (hnew name (by simp))
      have hlater : ∀ other ∈ rest.map Prod.fst, next.constants.lookup other = none := by
        intro other hmem
        have hne : other ≠ name := fun heq ↦ hnodup.1 (heq ▸ hmem)
        rw [hothers other hne]
        exact hnew other (by simp [hmem])
      obtain ⟨operands, hlast, hrest, hextends'⟩ := ih h hnodup.2 hlater
      refine ⟨operand :: operands, ?_, .cons (hplanned.extends hextends') hrest,
        hextends.trans hextends'⟩
      rw [hlast, hoperands, List.append_assoc]
      rfl

/-! ### Types of operands -/

@[simp] theorem slot_scalarOperand (element : ElementType) :
    (scalarOperand element).slot = none := by
  unfold scalarOperand
  split
  · rfl
  · rfl

theorem name_ne_arrayLength (element : ElementType) : element.name ≠ "arrayLength" := by
  cases element <;> decide

theorem conversion_ne_arrayLength (source target : ElementType) :
    conversion source target ≠ "arrayLength" := by
  unfold conversion
  split
  · decide
  · exact name_ne_arrayLength target

/-- Operands name types, and convert to types. -/
theorem Planned.types {item : String × Value × ElementType} {operand : Kernel.Operand}
    (h : Planned engine plan item operand) :
    operand.type ≠ "arrayLength" ∧ operand.conversion ≠ "arrayLength" := by
  cases h with
  | array bound => exact ⟨name_ne_arrayLength _, conversion_ne_arrayLength _ _⟩
  | @scalar _ _ _ target =>
    unfold scalarOperand
    split
    · exact ⟨name_ne_arrayLength .f32, name_ne_arrayLength target⟩
    · have hempty : ("" : String) ≠ "arrayLength" := by decide
      exact ⟨name_ne_arrayLength target, hempty⟩

end ComputeArray.OperandPlan
