import ComputeArray.Proofs.Element.Resolution
import ComputeArray.Proofs.Half.Kernels
import ComputeArray.Proofs.Interface.Passes

/-!
# Passes that declare half precision

The passes of an engine are gated as long as arrays have half precision only where it is available
(`Engine.Affords`). Operands are converted to half precision only if the call is computed in it,
and it is the common type of operands only if one of the arrays among them has it
(`half_of_commonType`).
-/

set_option autoImplicit false

namespace ComputeArray

open Kernel

namespace ElementType

theorem halfless_name {element : ElementType} (h : element ≠ .f16) : Halfless element.name := by
  cases element <;> first | decide | exact absurd rfl h

theorem name_eq_half_iff {element : ElementType} : element.name = "f16" ↔ element = .f16 := by
  cases element <;> decide

end ElementType

namespace Engine

/-- Arrays have half precision only where it is available. -/
def Affords (half : Bool) (engine : Engine) : Prop :=
  ∀ buffer, (engine.array buffer).element = .f16 → half = true

end Engine

variable {engine : Engine} {operation : Operation} {operands : List Value}
  {targets : List ElementType} {result common : ElementType} {half : Bool}

/-! ### Operands -/

namespace OperandPlan

theorem halfless_conversion (source : ElementType) {target : ElementType} (h : target ≠ .f16) :
    Halfless (conversion source target) := by
  unfold conversion
  split
  · decide
  · exact ElementType.halfless_name h

/-- An operand has half precision or is converted to it only if it is an array that has it, or is
computed in it. -/
theorem Planned.plain {plan : OperandPlan} {item : String × Value × ElementType}
    {operand : Operand} (h : Planned engine plan item operand) (htarget : item.2.2 ≠ .f16)
    (htype : operand.isScalar = false → operand.type ≠ "f16") : operand.Plain := by
  cases h with
  | array bound =>
    have helement := mt ElementType.name_eq_half_iff.mpr (htype rfl)
    exact ⟨ElementType.halfless_name helement, halfless_conversion _ htarget⟩
  | scalar noArray stored listed =>
    rw [scalarOperand, if_neg htarget]
    exact ⟨ElementType.halfless_name htarget, (by decide : Halfless "")⟩

end OperandPlan

theorem Spelling.half_of_resultType {types : List ElementType}
    (h : elements.resultType types = .ok .f16) : .f16 ∈ types := by
  have hne : types ≠ [] := by
    rintro rfl
    cases h
  exact ((resultType_eq_ok_iff hne).mp h).2.1

/-- Beside another type, no scalar is taken to have half precision. -/
theorem Spelling.half_of_scalarType {value : Value} {base : ElementType}
    (h : elements.scalarType value (some base) = .ok .f16) : base = .f16 := by
  unfold scalarType at h
  cases hscalar : Scalar.ofValue? value with
  | none =>
    rw [hscalar] at h
    cases h
  | some scalar =>
    rw [hscalar] at h
    dsimp only at h
    split at h
    · exact Except.ok.inj h
    · obtain ⟨whole, -, h⟩ := bind_eq_ok.mp h
      split at h
      · cases h
      · split at h
        · cases h
        · exact Except.ok.inj h

/-- Operands are computed in half precision only if an array among them has it. -/
theorem half_of_commonType (h : outcomeOf (Action.commonType operands) engine = .ok .f16) :
    ∃ buffer ∈ Value.arrays operands, (engine.array buffer).element = .f16 := by
  rw [Action.outcomeOf_commonType, Action.typeOf] at h
  obtain ⟨-, h⟩ := guarded_eq_ok.mp h
  obtain ⟨base, hbase, h⟩ := bind_eq_ok.mp h
  obtain ⟨types, htypes, h⟩ := bind_eq_ok.mp h
  obtain ⟨operand, hoperand, htype⟩ :=
    exists_of_forall₂ (forall₂_of_mapM_ok htypes) (Spelling.half_of_resultType h)
  unfold Action.operandType at htype
  split at htype
  · next buffer described => exact ⟨buffer, mem_arrays hoperand, Except.ok.inj htype⟩
  · rw [Spelling.half_of_scalarType htype] at hbase
    exact List.mem_map.mp (Spelling.half_of_resultType hbase)

namespace EngineCall.Launches

variable {call : EngineCall} {out : Value}

theorem halfless_symbol (h : call.Launches engine operation operands targets result out) :
    Halfless operation.symbol := by
  cases h with
  | elementwise found noFold count typed => exact Operation.halfless_symbol _ (mem_of_lookup found)
  | choose typed => decide

/-- A call is computed in half precision only if an array among its operands has it. -/
theorem half_of_mem (h : call.Launches engine operation operands targets result out)
    (hhalf : .f16 ∈ targets) :
    ∃ buffer ∈ Value.arrays operands, (engine.array buffer).element = .f16 := by
  cases h with
  | elementwise found noFold count typed =>
    obtain ⟨operand, -, htarget⟩ := List.mem_map.mp hhalf
    refine half_of_commonType (typed.trans (congrArg Except.ok ?_))
    split at htarget
    · cases htarget
    · exact htarget
  | @choose buffer described yes no _ _ typed =>
    rcases List.mem_cons.mp hhalf with heq | hmem
    · exact ⟨buffer, mem_arrays List.mem_cons_self, heq.symm⟩
    · have hcommon : result = .f16 := by simpa [eq_comm] using hmem
      obtain ⟨found, hfound, helement⟩ := half_of_commonType (typed.trans (congrArg _ hcommon))
      exact ⟨found, List.mem_cons_of_mem _ hfound, helement⟩

end EngineCall.Launches

/-! ### Elementwise passes -/

/-- An elementwise pass is gated if the call is computed in half precision only where an array among
its operands has it. -/
theorem gated_of_elementwisePass {shape : List Int} {strided : Bool} {target : Nat}
    {pass : Dispatch} {helpers : List Nat} (hafford : engine.Affords half)
    (hcount : operands.length = operation.template.operands.length)
    (htypes : targets.length = operands.length) (hsymbol : Halfless operation.symbol)
    (htargets : .f16 ∈ targets →
      ∃ buffer ∈ Value.arrays operands, (engine.array buffer).element = .f16)
    (h : outcomeOf (Action.elementwisePass operation operands targets result shape strided target)
      engine = .ok (pass, helpers)) : Gated half pass.source := by
  obtain ⟨plan, helpers, kernel, hmade, -⟩ := made_of_elementwisePass h
  have hplanned := hmade.forall₂_planned hcount htypes
  have hlength : plan.operands.length = operation.template.operands.length := by
    rw [← hplanned.length_eq]
    simp [hcount, htypes]
  set out := outOperand engine result plan.bindings.length target with hout
  rw [hmade.source]
  refine Operation.gated_kernel hmade.built hlength hsymbol rfl ?afforded fun hnone ↦ ?plain
  case afforded =>
    intro operand hmem harray htype
    rcases List.mem_append.mp hmem with hmem | hmem
    · obtain ⟨item, -, hitem⟩ := exists_of_forall₂ hplanned hmem
      cases hitem with
      | array bound => exact hafford _ (ElementType.name_eq_half_iff.mp htype)
      | scalar noArray stored listed =>
        rw [Operand.isScalar, OperandPlan.slot_scalarOperand] at harray
        cases harray
    · obtain rfl := List.mem_singleton.mp hmem
      exact hafford target (ElementType.name_eq_half_iff.mp htype)
  case plain =>
    -- If the call were computed in half precision, one of the arrays bound to it would have it.
    have hwhole : .f16 ∉ targets := by
      intro hhalf
      obtain ⟨buffer, hbuffer, helement⟩ := htargets hhalf
      obtain ⟨described, hvalue⟩ := Value.mem_arrays_iff.mp hbuffer
      rw [← List.map_snd_zip (Nat.le_of_eq hcount)] at hvalue
      obtain ⟨⟨name, value⟩, hnamed, rfl⟩ := List.mem_map.mp hvalue
      obtain ⟨type, hitem⟩ := exists_mem_zip_zip hnamed htypes
      obtain ⟨operand, hmem, hoperand⟩ := exists_of_forall₂ hplanned.flip hitem
      cases hoperand with
      | array bound =>
        exact hnone _ (List.mem_append_left _ hmem) rfl
          (ElementType.name_eq_half_iff.mpr helement)
      | scalar noArray stored listed => exact noArray _ _ rfl
    intro operand hmem
    rcases List.mem_append.mp hmem with hmem | hmem
    · obtain ⟨item, hitem, hoperand⟩ := exists_of_forall₂ hplanned hmem
      refine hoperand.plain (fun htarget ↦ hwhole ?_)
        (hnone operand (List.mem_append_left _ hmem))
      exact htarget ▸ (List.of_mem_zip (List.of_mem_zip hitem).2).2
    · obtain rfl := List.mem_singleton.mp hmem
      have helement := mt ElementType.name_eq_half_iff.mpr
        (hnone out (List.mem_append_right _ hmem) rfl)
      exact ⟨ElementType.halfless_name helement, OperandPlan.halfless_conversion _ helement⟩

/-! ### Passes of reductions and of random streams -/

/-- A pass of a reduction converts to the type of the array it writes. -/
theorem gated_foldDispatch (hafford : engine.Affords half) (hsymbol : Halfless operation.symbol)
    (element : ElementType) (source destination : Nat) (n lanes : Int) :
    Gated half
      (Action.foldDispatch engine operation element source destination n lanes).source := by
  refine Operation.gated_foldKernel hsymbol rfl rfl ?_ fun hnone ↦ ?_
  · simp only [List.forall_mem_cons, List.not_mem_nil, false_implies, implies_true, and_true]
    exact ⟨fun h ↦ hafford source (ElementType.name_eq_half_iff.mp h),
      fun h ↦ hafford destination (ElementType.name_eq_half_iff.mp h)⟩
  · simp only [List.forall_mem_cons, List.not_mem_nil, false_implies, implies_true,
      and_true] at hnone
    have hread := mt ElementType.name_eq_half_iff.mpr hnone.1
    have hwritten := mt ElementType.name_eq_half_iff.mpr hnone.2
    exact ⟨⟨ElementType.halfless_name hread, (by decide : Halfless "")⟩,
      ElementType.halfless_name hwritten, OperandPlan.halfless_conversion _ hwritten⟩

namespace Generator

variable {element : ElementType}

theorem gated_drawPass (size : Int) (slot : Nat) (h : element = .f16 → half = true) :
    Gated half (Stream.draw size stateOperand (some (outOperand slot element))).source := by
  refine Stream.gated_draw ?_ ?_ ?_
  · rintro operand ⟨⟩
    rfl
  · rintro operand ⟨⟩ htype
    exact h (ElementType.name_eq_half_iff.mp htype)
  · rintro operand ⟨⟩ htype
    exact ElementType.halfless_name (mt ElementType.name_eq_half_iff.mpr htype)

theorem gated_skipPass (size : Int) : Gated half (Stream.draw size stateOperand none).source :=
  Stream.gated_draw nofun nofun nofun

theorem gated_pairPass (size : Int) (h : element = .f16 → half = true) :
    Gated half (Stream.normalPair size stateOperand (outOperand 1 element)
      (outOperand 2 element)).source := by
  refine Stream.gated_normalPair rfl rfl ?_ fun hnone ↦ ?_
  · simp only [List.forall_mem_cons, List.not_mem_nil, false_implies, implies_true, and_true]
    exact ⟨fun htype ↦ h (ElementType.name_eq_half_iff.mp htype),
      fun htype ↦ h (ElementType.name_eq_half_iff.mp htype)⟩
  · have htype := ElementType.halfless_name
      (mt ElementType.name_eq_half_iff.mpr (hnone _ List.mem_cons_self))
    exact ⟨htype, htype⟩

end Generator

end ComputeArray
