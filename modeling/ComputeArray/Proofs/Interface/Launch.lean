import ComputeArray.Proofs.Calls.Plan
import ComputeArray.Proofs.Interface.Slot
import ComputeArray.Proofs.Interface.Typing
import ComputeArray.Proofs.Launch.Lanes

/-!
# Interfaces of elementwise passes

The operands of an operation are numbered one by one while they are gone through: an array takes the
next slot, and a scalar none (`planning_of_foldlM`). The output comes after them and the strides
last, so what a pass binds is what its kernel declares, and the values the kernel computes with have
the types they are meant to have (`launched_of_elementwisePass`).
-/

set_option autoImplicit false

namespace ComputeArray

open Kernel Elementwise

variable {engine : Engine} {operation : Operation} {operands : List Value}
  {targets : List ElementType} {result : ElementType} {target : Nat} {pass : Dispatch}
  {helpers : List (String × Nat)} {kernel : Kernel}

/-! ### Plans -/

/-- The operands that are no arrays, with the types they are computed in. -/
def namedScalars (items : List (String × Value × ElementType)) :
    List (String × Value × ElementType) :=
  items.filterMap fun
    | (_, .array _ _, _) => none
    | item => some item

/-- The slots of the arrays among the operands. -/
def Slot.ofOperands (arrays : Nat → ArrayState) (items : List (String × Value)) : List Slot :=
  (Action.namedArrays items).map fun (name, buffer) ↦ .ofArray arrays name buffer .read

/-- The plan that going through operands adds up to, if slots are numbered from `first` on. -/
inductive Planning (engine : Engine) :
    Nat → List (String × Value × ElementType) → OperandPlan → Prop where
  | nil {first : Nat} : Planning engine first [] .empty
  | array {first : Nat} {name described : String} {buffer : Nat} {target : ElementType}
      {rest : List (String × Value × ElementType)} {plan : OperandPlan}
      (later : Planning engine (first + 1) rest plan) :
      Planning engine first ((name, .array buffer described, target) :: rest)
        ⟨⟨some first, (engine.array buffer).element.name,
            OperandPlan.conversion (engine.array buffer).element target⟩ :: plan.operands,
          (.array buffer, .read) :: plan.bindings, plan.constants⟩
  | scalar {first : Nat} {name : String} {value constant : Value} {target : ElementType}
      {rest : List (String × Value × ElementType)} {plan : OperandPlan}
      (noArray : ∀ buffer described, value ≠ .array buffer described)
      (stored : OperandPlan.constantOf target value = .ok constant)
      (later : Planning engine first rest plan) :
      Planning engine first ((name, value, target) :: rest)
        ⟨OperandPlan.scalarOperand target :: plan.operands, plan.bindings,
          (name, constant) :: plan.constants⟩

theorem planning_of_foldlM {items : List (String × Value × ElementType)} {plan last : OperandPlan}
    (h : items.foldlM (fun plan (name, value, element) ↦ plan.add engine name value element) plan =
      .ok last) :
    ∃ added, Planning engine plan.bindings.length items added ∧
      last = ⟨plan.operands ++ added.operands, plan.bindings ++ added.bindings,
        plan.constants ++ added.constants⟩ := by
  induction items generalizing plan with
  | nil =>
    cases h
    refine ⟨.empty, .nil, ?_⟩
    simp [OperandPlan.empty]
  | cons item rest ih =>
    obtain ⟨name, value, target⟩ := item
    rw [List.foldlM_cons] at h
    cases hadd : plan.add engine name value target with
    | error failure =>
      simp only [hadd] at h
      cases h
    | ok next =>
      simp only [hadd] at h
      obtain ⟨added, hplanning, rfl⟩ := ih h
      rcases OperandPlan.add_cases hadd with
        ⟨buffer, described, rfl, rfl⟩ | ⟨hvalue, constant, hconstant, rfl⟩
      · rw [List.length_append] at hplanning
        refine ⟨_, .array hplanning, ?_⟩
        simp
      · refine ⟨_, .scalar hvalue hconstant hplanning, ?_⟩
        simp

namespace Planning

variable {first : Nat} {items : List (String × Value × ElementType)} {plan : OperandPlan}

/-- The operands, as they are named to the kernel. -/
abbrev inputs (items : List (String × Value × ElementType)) (plan : OperandPlan) :
    List (String × Operand) :=
  (items.map Prod.fst).zip plan.operands

/-- The operands, as they are named by the caller. -/
abbrev named (items : List (String × Value × ElementType)) : List (String × Value) :=
  items.map fun (name, value, _) ↦ (name, value)

theorem skip_scalar {name : String} {value : Value} {target : ElementType}
    (h : ∀ buffer described, value ≠ .array buffer described) :
    Action.namedArrays (named ((name, value, target) :: items)) =
        Action.namedArrays (named items) ∧
      namedScalars ((name, value, target) :: items) =
        (name, value, target) :: namedScalars items := by
  cases value with
  | array buffer described => exact absurd rfl (h buffer described)
  | _ => exact ⟨rfl, rfl⟩

theorem bindings (h : Planning engine first items plan) :
    plan.bindings = (Slot.ofOperands engine.array (named items)).map Slot.binding := by
  induction h with
  | nil => rfl
  | array _ ih =>
    rw [ih]
    rfl
  | scalar noArray _ _ ih => rw [ih, Slot.ofOperands, Slot.ofOperands, (skip_scalar noArray).1]

theorem declaration?_scalar (name : String) (target : ElementType) :
    ((OperandPlan.scalarOperand target).item name .read).declaration? = none ∧
      ((OperandPlan.scalarOperand target).item name .read).override? =
        some (name, (OperandPlan.scalarOperand target).type) := by
  unfold Operand.item
  rw [OperandPlan.slot_scalarOperand]
  exact ⟨rfl, rfl⟩

/-- The arrays among the operands are declared as they are bound. -/
theorem declarations (h : Planning engine first items plan) :
    ((inputs items plan).map fun (name, operand) ↦ operand.item name .read).filterMap
        Item.declaration? =
          Slot.declarations first (Slot.ofOperands engine.array (named items)) := by
  induction h with
  | nil => rfl
  | array _ ih => exact congrArg (List.cons _) ih
  | @scalar _ name _ _ target _ _ noArray _ _ ih =>
    rw [Slot.ofOperands, (skip_scalar noArray).1]
    exact (List.filterMap_cons_none (declaration?_scalar name target).1).trans ih

theorem overrides (h : Planning engine first items plan) :
    ((inputs items plan).map fun (name, operand) ↦ operand.item name .read).filterMap
        Item.override? =
      (namedScalars items).map fun (name, _, target) ↦
        (name, (OperandPlan.scalarOperand target).type) := by
  induction h with
  | nil => rfl
  | array _ ih => exact ih
  | @scalar _ name _ _ target _ _ noArray _ _ ih =>
    rw [(skip_scalar noArray).2, List.map_cons, ← ih]
    exact List.filterMap_cons_some (declaration?_scalar name target).2

theorem constants (h : Planning engine first items plan) :
    List.Forall₂ (fun item constant ↦ constant.1 = item.1 ∧
      OperandPlan.constantOf item.2.2 item.2.1 = .ok constant.2) (namedScalars items)
        plan.constants := by
  induction h with
  | nil => exact .nil
  | array _ ih => exact ih
  | scalar noArray stored _ ih =>
    rw [(skip_scalar noArray).2]
    exact .cons ⟨rfl, stored⟩ ih

theorem arrayNames_eq (h : Planning engine first items plan) :
    arrayNames (inputs items plan) = (Action.namedArrays (named items)).map Prod.fst := by
  induction h with
  | nil => rfl
  | array _ ih => exact congrArg (List.cons _) ih
  | @scalar _ _ _ _ target _ _ noArray _ _ ih =>
    rw [(skip_scalar noArray).1, ← ih]
    have hscalar : (OperandPlan.scalarOperand target).isScalar = true := by
      rw [Operand.isScalar, OperandPlan.slot_scalarOperand]
      rfl
    refine congrArg (List.map Prod.fst) (List.filter_cons_of_neg ?_)
    simp [hscalar]

/-- Converted, each operand has the type it is computed in. -/
theorem values (h : Planning engine first items plan)
    (hitems : ∀ input ∈ inputs items plan, input.2.item input.1 .read ∈ kernel.items)
    (place : String → Expression) :
    List.Forall₂ kernel.HasType
      ((inputs items plan).map fun (name, operand) ↦ operand.value name (place name))
      (items.map fun item ↦ item.2.2) := by
  induction h with
  | nil => exact .nil
  | array _ ih =>
    have hdeclared := hitems _ List.mem_cons_self
    exact .cons (.convert (.element hdeclared) _)
      (ih fun input hmem ↦ hitems input (List.mem_cons_of_mem _ hmem))
  | @scalar _ name _ _ target _ _ _ _ _ ih =>
    have hdeclared := hitems _ List.mem_cons_self
    refine .cons ?_ (ih fun input hmem ↦ hitems input (List.mem_cons_of_mem _ hmem))
    dsimp only at hdeclared ⊢
    unfold OperandPlan.scalarOperand at hdeclared ⊢
    by_cases hhalf : target = .f16
    · subst hhalf
      rw [if_pos rfl] at hdeclared ⊢
      exact @HasType.convert kernel _ .f32 (.override hdeclared) .f16
    · rw [if_neg hhalf] at hdeclared ⊢
      exact .group (.override hdeclared)

theorem length_operands (h : Planning engine first items plan) :
    plan.operands.length = items.length := by
  induction h with
  | nil => rfl
  | array _ ih => exact congrArg (· + 1) ih
  | scalar _ _ _ ih => exact congrArg (· + 1) ih

end Planning

/-! ### Strides -/

/-- The slots of the strides of arrays, by name. -/
def Slot.ofHelpers (helpers : List (String × Nat)) : List Slot :=
  helpers.map fun (name, buffer) ↦ .ofStrides name buffer

/-- The strides are declared as their buffers are bound behind the output. -/
theorem declarations_of_strideItems {outSlot : Nat} {before rest : List (String × Nat)}
    {items : List Item} (hnodup : ((before ++ rest).map Prod.fst).Nodup)
    (h : List.Forall₂ (fun name item ↦
      strideItem (Launch.strideSlots outSlot (before ++ rest)) name = .ok item)
        (rest.map Prod.fst) items) :
    items.filterMap Item.declaration? =
        Slot.declarations (outSlot + 1 + before.length) (Slot.ofHelpers rest) ∧
      items.filterMap Item.override? = [] := by
  induction rest generalizing before items with
  | nil =>
    cases h
    exact ⟨rfl, rfl⟩
  | cons helper rest ih =>
    cases h with
    | cons hitem hrest =>
      have hnumber : (before ++ helper :: rest)[before.length]? = some helper := by simp
      obtain ⟨slot, hslot, rfl⟩ := strideItem_eq_ok hitem
      rw [lookup_strideSlots hnodup hnumber] at hslot
      cases hslot
      have hlater : before ++ helper :: rest = before ++ [helper] ++ rest := by simp
      rw [hlater] at hnodup hrest
      obtain ⟨hdeclared, hnone⟩ := ih hnodup hrest
      rw [List.length_append] at hdeclared
      exact ⟨congrArg (List.cons _) hdeclared, hnone⟩

theorem namedArrays_sublist (items : List (String × Value)) :
    ((Action.namedArrays items).map Prod.fst).Sublist (items.map Prod.fst) := by
  induction items with
  | nil => exact .refl _
  | cons item rest ih =>
    obtain ⟨name, value⟩ := item
    cases value with
    | array buffer described => exact ih.cons_cons name
    | _ => exact ih.cons name

/-! ### Passes -/

/-- What an elementwise pass shows of itself, with the arrays and the device there are when it is
submitted. Its slots are the arrays among the operands under their names, the output, and, if it is
strided, the strides of both; its constants are the operands that are no arrays, half precision
being declared as single. Each operand has been converted to the type it is computed in, and what is
stored to the type of the output. -/
structure LaunchedPass (arrays : Nat → ArrayState) (device : Device) (operation : Operation)
    (operands : List Value) (targets : List ElementType) (result : ElementType) (shape : List Int)
    (strided : Bool) (target : Nat) (pass : Dispatch) (kernel : Kernel)
    (helpers : List (String × Nat)) : Prop where
  presents : pass.Presents kernel
    (Slot.ofOperands arrays (operation.template.operands.zip operands) ++
      [.ofArray arrays "out" target .write] ++ Slot.ofHelpers helpers)
  filled : strided = true → Action.AllFilled arrays shape device
    (operation.template.operands.zip operands) helpers
  direct : strided = false → helpers = []
  overrides : kernel.overrides =
    (namedScalars (operation.template.operands.zip (operands.zip targets))).map
      fun (name, _, element) ↦ (name, (OperandPlan.scalarOperand element).type)
  constants : List.Forall₂ (fun item constant ↦ constant.1 = item.1 ∧
    OperandPlan.constantOf item.2.2 item.2.1 = .ok constant.2)
      (namedScalars (operation.template.operands.zip (operands.zip targets))) pass.constants
  typed : ∃ described values,
    List.Forall₂ kernel.HasType values targets ∧
    kernel.HasType (operation.applied described values) result ∧
    kernel.Stores "out" (.convert (OperandPlan.conversion result (arrays target).element)
      (operation.applied described values)) ∧
    kernel.HasType (.convert (OperandPlan.conversion result (arrays target).element)
      (operation.applied described values)) (arrays target).element

/-- What an elementwise kernel declares, part by part, and what its lanes store. -/
theorem declared_of_kernel {size : Int} {inputs : List (String × Operand)} {slot : Nat}
    {type conversion : String} {form : List Expression → Expression} {strides : Option StrideSlots}
    (h : Elementwise.kernel size inputs ⟨some slot, type, conversion⟩ form strides = .ok kernel) :
    ∃ strideItems,
      kernel.declarations =
        (inputs.map fun (name, operand) ↦ operand.item name .read).filterMap Item.declaration? ++
          [⟨some slot, .readWrite, "out", type⟩] ++ strideItems.filterMap Item.declaration? ∧
      kernel.overrides =
        (inputs.map fun (name, operand) ↦ operand.item name .read).filterMap Item.override? ++
          strideItems.filterMap Item.override? ∧
      (strides = none → strideItems = []) ∧
      (∀ slots, strides = some slots →
        List.Forall₂ (fun name item ↦ strideItem slots name = .ok item)
          (arrayNames inputs ++ ["out"]) strideItems) ∧
      (∀ input ∈ inputs, input.2.item input.1 .read ∈ kernel.items) ∧
      ∃ place : String → Expression,
        kernel.Stores "out" (.convert conversion (form (inputs.map fun (name, operand) ↦
          operand.value name (place name)))) := by
  obtain ⟨strideItems, hitems, hnone, hsome⟩ := items_of_kernel h
  refine ⟨strideItems, ?_, ?_, hnone, hsome, fun input hmem ↦ ?_, position strides.isSome,
    size, body size inputs ⟨some slot, type, conversion⟩ form strides.isSome, ?_, ?_⟩
  · simp only [Kernel.declarations, hitems, List.filterMap_append,
      List.filterMap_cons_none (declaration?_preamble _)]
    simp [List.filterMap_cons, Item.declaration?, Operand.item]
  · simp only [Kernel.overrides, hitems, List.filterMap_append,
      List.filterMap_cons_none (override?_preamble _)]
    simp [List.filterMap_cons, Item.override?, Operand.item]
  · rw [hitems]
    simp only [List.mem_append, List.mem_map]
    exact .inl (.inl (.inl (.inr ⟨input, hmem, rfl⟩)))
  · rw [hitems]
    exact List.mem_append_right _ (List.mem_cons_of_mem _ (List.mem_singleton_self _))
  · exact List.mem_append_right _ (List.mem_singleton_self _)

section Items

variable {names : List String}

theorem map_fst_items (hnames : names.length = operands.length)
    (htypes : targets.length = operands.length) :
    (names.zip (operands.zip targets)).map Prod.fst = names :=
  List.map_fst_zip (by rw [List.length_zip]; omega)

theorem named_items (htypes : targets.length = operands.length) :
    Planning.named (names.zip (operands.zip targets)) = names.zip operands := by
  conv_rhs => rw [← List.map_fst_zip (Nat.le_of_eq htypes.symm), List.zip_map_right]
  rfl

theorem map_target_items (hnames : names.length = operands.length)
    (htypes : targets.length = operands.length) :
    (names.zip (operands.zip targets)).map (fun item ↦ item.2.2) = targets := by
  have hvalues : (names.zip (operands.zip targets)).map Prod.snd = operands.zip targets :=
    List.map_snd_zip (by rw [List.length_zip]; omega)
  conv_rhs => rw [← List.map_snd_zip (Nat.le_of_eq htypes), ← hvalues, List.map_map]
  rfl

end Items

theorem names_of_filled {arrays : Nat → ArrayState} {shape : List Int} {device : Device}
    {items : List (String × Value)} (h : Action.AllFilled arrays shape device items helpers) :
    helpers.map Prod.fst = (Action.namedArrays items).map Prod.fst ++ ["out"] := by
  obtain ⟨inputs, out, rfl, hfilled, -⟩ := h
  rw [List.map_append, names_of_forall₂ hfilled fun _ _ h ↦ h.1]
  rfl

namespace Made

variable {plan : OperandPlan} {strided : Bool}

/-- A made pass goes through its operands from the first slot on, and they are the inputs of its
kernel. -/
theorem planning
    (hmade : Made engine operation operands targets result strided target plan helpers kernel pass)
    (hcount : operands.length = operation.template.operands.length)
    (htypes : targets.length = operands.length) :
    Planning engine 0 (operation.template.operands.zip (operands.zip targets)) plan ∧
      Elementwise.kernel engine.workgroupSize
        (Planning.inputs (operation.template.operands.zip (operands.zip targets)) plan)
        (outOperand engine result plan.bindings.length target) (operation.applied plan.operands)
        (if strided then some (Launch.strideSlots plan.bindings.length helpers) else none) =
          .ok kernel := by
  have hfirst := map_fst_items hcount.symm htypes
  obtain ⟨added, hplanning, hplan⟩ := planning_of_foldlM hmade.planned
  obtain rfl : plan = added := hplan
  have hlength : plan.operands.length = operation.template.operands.length := by
    rw [hplanning.length_operands, ← congrArg List.length hfirst, List.length_map]
  have hbuilt := hmade.built
  rw [Operation.kernel_eq_applied hlength] at hbuilt
  rw [Planning.inputs, hfirst]
  exact ⟨hplanning, hbuilt⟩

end Made

/-- The strides of a pass are declared as their buffers are bound, if there are any. -/
theorem declared_of_stridesBuffersIf {shape : List Int} {strided : Bool} {outSlot : Nat}
    {strideItems : List Item}
    (hcount : operands.length = operation.template.operands.length)
    (hhelpers : outcomeOf (Action.stridesBuffersIf strided operation.template.operands operands
      shape) engine = .ok helpers)
    (hnone : strided = false → strideItems = [])
    (hsome : strided = true → List.Forall₂ (fun name item ↦
      strideItem (Launch.strideSlots outSlot helpers) name = .ok item)
        ((Action.namedArrays (operation.template.operands.zip operands)).map Prod.fst ++ ["out"])
        strideItems) :
    (strideItems.filterMap Item.declaration? =
        Slot.declarations (outSlot + 1) (Slot.ofHelpers helpers) ∧
      strideItems.filterMap Item.override? = []) ∧
      (strided = true → Action.AllFilled engine.array shape
        (stateAfter (Action.stridesBuffersIf strided operation.template.operands operands shape)
          engine).device
          (operation.template.operands.zip operands) helpers) ∧
      (strided = false → helpers = []) := by
  cases strided with
  | false =>
    cases hhelpers
    rw [hnone rfl]
    exact ⟨⟨rfl, rfl⟩, nofun, fun _ ↦ rfl⟩
  | true =>
    have hfilled := Action.filled_of_stridesBuffers hhelpers
    have hnames := names_of_filled hfilled
    have hnodup : ((operation.template.operands.zip operands).map Prod.fst ++ ["out"]).Nodup := by
      rw [List.map_fst_zip (Nat.le_of_eq hcount.symm)]
      exact (List.nodup_append.mp (free_operands operation.template).declared).1
    have hdistinct : (([] ++ helpers).map Prod.fst).Nodup := by
      rw [List.nil_append, hnames]
      exact hnodup.sublist ((namedArrays_sublist _).append_right _)
    have hitems := hsome rfl
    rw [← hnames] at hitems
    exact ⟨declarations_of_strideItems hdistinct hitems, fun _ ↦ hfilled, nofun⟩

/-- A made pass shows its operands, its output and its strides as it binds them. -/
theorem launched_of_made {plan : OperandPlan} {shape : List Int} {strided : Bool}
    (hcount : operands.length = operation.template.operands.length)
    (htypes : targets.length = operands.length)
    (happlied : ∀ {kernel : Kernel} {plan : OperandPlan} {values : List Expression},
      Planning engine 0 (operation.template.operands.zip (operands.zip targets)) plan →
      List.Forall₂ kernel.HasType values targets →
      kernel.HasType (operation.applied plan.operands values) result)
    (hmade : Made engine operation operands targets result strided target plan helpers kernel pass)
    (hhelpers : outcomeOf (Action.stridesBuffersIf strided operation.template.operands operands
      shape) engine = .ok helpers) :
    LaunchedPass engine.array (stateAfter (Action.stridesBuffersIf strided
      operation.template.operands operands shape) engine).device operation operands targets result
        shape strided target pass kernel helpers := by
  obtain ⟨hplanning, hbuilt⟩ := hmade.planning hcount htypes
  obtain ⟨strideItems, hdeclarations, hoverrides, hnone, hsome, hmem, place, hstores⟩ :=
    declared_of_kernel hbuilt
  rw [hplanning.arrayNames_eq, named_items htypes] at hsome
  obtain ⟨⟨hdeclared, hoverride⟩, hfilled, hdirect⟩ :=
    declared_of_stridesBuffersIf hcount hhelpers (fun hfalse ↦ hnone (by rw [hfalse]; rfl))
      fun htrue ↦ hsome _ (if_pos htrue)
  have hvalues := hplanning.values hmem place
  rw [map_target_items hcount.symm htypes] at hvalues
  have hresult := happlied hplanning hvalues
  have hconstants := hplanning.constants
  have hbindings := hplanning.bindings
  rw [named_items htypes] at hbindings
  have hslot : plan.bindings.length =
      (Slot.ofOperands engine.array (operation.template.operands.zip operands)).length := by
    rw [hbindings, List.length_map]
  rw [hplanning.overrides, hoverride, List.append_nil] at hoverrides
  rw [hplanning.declarations, hdeclared, named_items htypes, hslot] at hdeclarations
  refine ⟨.of_declarations hmade.source ?_ ?_ ?_, hfilled, hdirect, hoverrides,
    hmade.constants ▸ hconstants, plan.operands, _, hvalues, hresult, hstores, hresult.convert _⟩
  · rw [hmade.bindings, hbindings, List.map_append, List.map_append, Slot.ofHelpers, List.map_map,
      List.map_map]
    rfl
  · rw [Slot.declarations_append, Slot.declarations_append, hdeclarations, List.length_append,
      Nat.zero_add, Nat.zero_add]
    rfl
  · rw [hoverrides, hmade.constants, List.map_map, names_of_forall₂ hconstants fun _ _ h ↦ h.1]
    rfl

/-- The arrays stay as they are. -/
def Engine.SameArrays (before after : Engine) : Prop := after.array = before.array

instance : Std.Refl Engine.SameArrays := ⟨fun _ ↦ rfl⟩

instance : IsTrans Engine Engine.SameArrays := ⟨fun _ _ _ hfirst hlast ↦ Eq.trans hlast hfirst⟩

theorem sameArrays_stridesBuffer (strides : List Int) :
    Moves Engine.SameArrays (Action.stridesBuffer strides) :=
  .bind (.ofExcept _) fun _ ↦ .bind .assertActive fun _ _ ↦ rfl

/-- An elementwise pass shows the same when it has been made. -/
theorem launched_of_elementwisePass {shape : List Int} {strided : Bool} {buffers : List Nat}
    (hcount : operands.length = operation.template.operands.length)
    (htypes : targets.length = operands.length)
    (happlied : ∀ {kernel : Kernel} {plan : OperandPlan} {values : List Expression},
      Planning engine 0 (operation.template.operands.zip (operands.zip targets)) plan →
      List.Forall₂ kernel.HasType values targets →
      kernel.HasType (operation.applied plan.operands values) result)
    (h : outcomeOf (Action.elementwisePass operation operands targets result shape strided target)
      engine = .ok (pass, buffers)) :
    ∃ kernel helpers, LaunchedPass
      (stateAfter (Action.elementwisePass operation operands targets result shape strided target)
        engine).array
      (stateAfter (Action.elementwisePass operation operands targets result shape strided target)
        engine).device operation operands targets result shape strided target pass kernel
          helpers := by
  obtain ⟨plan, helpers, kernel, hmade, hhelpers, -, hafter⟩ := made_of_elementwisePass h
  have hsame : engine.SameArrays (stateAfter (Action.stridesBuffersIf strided
      operation.template.operands operands shape) engine) :=
    Moves.stridesBuffersIf sameArrays_stridesBuffer strided _ _ shape engine
  rw [hafter, hsame]
  exact ⟨kernel, helpers, launched_of_made hcount htypes happlied hmade hhelpers⟩

end ComputeArray
