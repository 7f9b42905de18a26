import ComputeArray.Proofs.Calls.Plan
import ComputeArray.Proofs.Layout.Broadcast
import ComputeArray.Proofs.Memory.Fitting
import ComputeArray.Proofs.Run.Allocation
import ComputeArray.Proofs.Run.Throwing

/-!
# Rejected calls

A call is rejected if its operands do not go together: their shapes, element types or layouts, or
values that do not convert. Such a failure shows before the first byte is written, when at most
buffers for new arrays have been allocated (`allocates_of_rejected`). The stride buffers of a pass
come last in its plan, and the shapes they are made for go together by then.
-/

set_option autoImplicit false

namespace ComputeArray

open Engine

variable {engine : Engine} {failure : Failure}

/-- The failure tells that operands do not go together. -/
def Failure.IsRejection (failure : Failure) : Prop :=
  failure.kind ∈ [FailureKind.shape, .elementType, .unsupported, .type, .value]

theorem Failure.IsDeviceFailure.not_isRejection (h : failure.IsDeviceFailure) :
    ¬ failure.IsRejection := by
  unfold IsRejection
  rcases h with h | h | h <;> rw [h] <;> decide

/-! ### Failures behind the checks -/

theorem exists_of_mapM_eq_error {α β : Type} {f : α → Except Failure β} {items : List α}
    (h : items.mapM f = .error failure) : ∃ item ∈ items, f item = .error failure := by
  induction items with
  | nil => cases h
  | cons first rest ih =>
    rw [List.mapM_cons] at h
    cases hfirst : f first with
    | error found =>
      rw [hfirst] at h
      cases h
      exact ⟨first, by simp, hfirst⟩
    | ok result =>
      rw [hfirst] at h
      cases hrest : rest.mapM f with
      | error found =>
        obtain ⟨item, hmem, hitem⟩ := ih (by
          rw [hrest] at h ⊢
          cases h
          rfl)
        exact ⟨item, List.mem_cons_of_mem first hmem, hitem⟩
      | ok results =>
        rw [hrest] at h
        cases h

namespace Layout

open Shape

/-- Strides of shapes that stretch to each other fail to be stretched
only where they are missing. -/
theorem stretch_eq_error {source goal shape target strides : List Int} {axis : Nat}
    (h : List.Forall₂ (fun extent wanted ↦ extent = 1 ∨ extent = wanted) shape target)
    (herror : stretch source goal axis shape target strides = .error failure) :
    failure = .strideAssignment := by
  induction h generalizing axis strides with
  | nil => cases herror
  | @cons extent wanted shape target hextent _ ih =>
    cases strides with
    | nil =>
      rw [stretch] at herror
      split at herror
      · exact ih herror
      · split at herror
        · rename_i hne hone
          exact absurd (hextent.resolve_right hne) hone
        · cases herror
          rfl
    | cons stride strides =>
      rw [stretch] at herror
      split at herror
      · cases hrest : stretch source goal (axis + 1) shape target strides with
        | error found =>
          rw [hrest] at herror
          cases herror
          exact ih hrest
        | ok rest =>
          rw [hrest] at herror
          cases herror
      · split at herror
        · rename_i hne hone
          exact absurd (hextent.resolve_right hne) hone
        · cases hrest : stretch source goal (axis + 1) shape target strides with
          | error found =>
            rw [hrest] at herror
            cases herror
            exact ih hrest
          | ok rest =>
            rw [hrest] at herror
            cases herror

/-- An array is broadcast to the common shape of all arrays, or to its own, without a check
failing. -/
theorem broadcast_eq_error {shapes : List (List Nat)} {shape strides target : List Int}
    (htarget : Shape.broadcast (shapes.map (·.map Int.ofNat)) = .ok target)
    (hshape : shape ∈ shapes.map (·.map Int.ofNat) ∨ shape = target)
    (herror : broadcast shape strides target = .error failure) : failure = .strideAssignment := by
  have hstretches : shape.length ≤ target.length ∧
      List.Forall₂ (fun extent wanted ↦ extent = 1 ∨ extent = wanted) (pad target.length shape)
        target := by
    rcases hshape with hmem | rfl
    · obtain ⟨own, hown, rfl⟩ := List.mem_map.mp hmem
      obtain ⟨hlengths, hextents⟩ := broadcast_spec htarget
      have hle := hlengths own hown
      have hlength : (pad target.length (own.map Int.ofNat)).length = target.length := by
        simp only [pad, List.length_append, List.length_replicate, List.length_map]
        omega
      refine ⟨by rw [List.length_map]; exact hle,
        List.forall₂_iff_get.mpr ⟨hlength, fun axis haxis haxis' ↦ ?_⟩⟩
      have hextent := (axisExtent?_spec (hextents axis haxis')).1 _
        (List.mem_map.mpr ⟨own, hown, rfl⟩)
      rwa [List.getD_eq_getElem _ _ haxis] at hextent
    · refine ⟨Nat.le_refl _, ?_⟩
      rw [pad, Nat.sub_self]
      exact List.forall₂_same.mpr fun _ _ ↦ .inr rfl
  unfold broadcast at herror
  rw [if_neg (Nat.not_lt.mpr hstretches.1)] at herror
  exact stretch_eq_error hstretches.2 herror

/-- Only extents beyond machine words have no count. -/
theorem contiguousCount_eq_error {shape : List Int}
    (h : contiguousCount shape = .error failure) : failure = .beyondMachineInteger := by
  unfold contiguousCount extentWords at h
  simp only [bind, Except.bind] at h
  split at h
  · next found hfound =>
    cases h
    split at hfound
    · cases hfound
      rfl
    · split at hfound <;> cases hfound
  · cases h

end Layout

theorem Failure.not_isRejection_of_kind (kind : FailureKind) (h : failure.kind = kind)
    (hkind : kind ∉ [FailureKind.shape, .elementType, .unsupported, .type, .value]) :
    ¬ failure.IsRejection := by
  rw [IsRejection, h]
  exact hkind

/-- Integers are refused as words for their size only. -/
theorem not_isRejection_of_storeInt {element : ElementType} {n : Int}
    (h : element.storeInt n = .error failure) : ¬ failure.IsRejection := by
  refine Failure.not_isRejection_of_kind .overflow ?_ (by decide)
  unfold ElementType.storeInt at h
  split at h
  · cases h
  · split at h <;> cases h <;> rfl

/-! ### Allocations -/

namespace Call

def IsAllocation : Call → Prop
  | createBuffer .. => True
  | _ => False

theorem IsAllocation.isQuiet {call : Call} (h : call.IsAllocation) : call.IsQuiet := by
  cases call with
  | createBuffer buffer size usage => trivial
  | _ => cases h

end Call

namespace Engine

/-- At most, buffers have been allocated, without bytes for them.
Nothing has begun to be encoded. -/
structure Allocates (before after : Engine) : Prop where
  serial : after.serial = before.serial
  encoders : after.device.encoders = before.device.encoders
  count : before.device.buffers.size ≤ after.device.buffers.size
  arrays : ∀ buffer array, before.arrays.lookup buffer = some array →
    after.arrays.lookup buffer = some array
  bytes : ∀ buffer, buffer ≤ before.device.buffers.size →
    after.device.bytesOf buffer = before.device.bytesOf buffer
  calls : ∃ calls : List Call, after.device.calls.toList = before.device.calls.toList ++ calls ∧
    ∀ call ∈ calls, call.IsAllocation

instance : Std.Refl Allocates := ⟨fun _ ↦ ⟨rfl, rfl, Nat.le_refl _, fun _ _ h ↦ h, fun _ _ ↦ rfl,
  [], by rw [List.append_nil], by simp⟩⟩

instance : IsTrans Engine Allocates := ⟨fun _ _ _ hfirst hlast ↦ by
  obtain ⟨before, hbefore, hcalls⟩ := hfirst.calls
  obtain ⟨after, hafter, hcalls'⟩ := hlast.calls
  refine ⟨hlast.serial.trans hfirst.serial, hlast.encoders.trans hfirst.encoders,
    Nat.le_trans hfirst.count hlast.count, fun buffer array h ↦
      hlast.arrays buffer array (hfirst.arrays buffer array h), fun buffer hle ↦
      (hlast.bytes buffer (Nat.le_trans hle hfirst.count)).trans (hfirst.bytes buffer hle),
    before ++ after, by rw [hafter, hbefore, List.append_assoc], fun call hmem ↦ ?_⟩
  exact (List.mem_append.mp hmem).elim (hcalls call) (hcalls' call)⟩

end Engine

theorem allocates_allocate (element : ElementType) (shape strides : List Nat)
    (customStrides : Bool) (count : Int) :
    Moves Allocates (Action.allocate element shape strides customStrides count) := by
  have hcreate (size : Nat) :
      Moves Allocates (Action.onDevice (Device.createBuffer size Device.storageUsage)) := by
    intro engine
    refine ⟨rfl, rfl, (Device.extends_createBuffer _ _ _).count, fun _ _ h ↦ h,
      fun _ hle ↦ Device.bytesOf_push _ hle,
      [.createBuffer (engine.device.buffers.size + 1) size Device.storageUsage],
      Array.toList_push, ?_⟩
    simp [Call.IsAllocation]
  have hadd (buffer : Nat) (array : ArrayState) :
      Moves Allocates (modify (Engine.addArray buffer array)) :=
    .update fun engine ↦ ⟨rfl, rfl, Nat.le_refl _,
      fun _ _ h ↦ (List.prefix_append engine.arrays _).lookup_eq_some h, fun _ _ ↦ rfl,
      [], by rw [List.append_nil]; rfl, by simp⟩
  exact .bind (.ofExcept _) fun size ↦ .bind .assertActive fun _ ↦ .bind (hcreate size) fun buffer ↦
    .bind (hadd _ _) fun _ ↦ .pure _

/-! ### Stride buffers and kernels -/

/-- Operands that go with the shape of a pass have strides that only words can be too small for. -/
def StridesFit (engine : Engine) (shape : List Int) (operands : List Value) : Prop :=
  ∀ buffer described, Value.array buffer described ∈ operands → ∀ failure,
    Layout.broadcast (engine.array buffer).shapeInts (engine.array buffer).strideInts shape =
      .error failure → failure = .strideAssignment

theorem throws_stridesBuffer (strides : List Int) :
    Throws (¬ ·.IsRejection) (Action.stridesBuffer strides) := by
  refine .bind (.ofExcept fun failure h ↦ ?_) fun _ ↦
    .bind (fun engine failure h ↦ (throws_assertActive engine failure h).not_isRejection) fun _ ↦
      fun _ _ h ↦ by cases h
  obtain ⟨n, -, hn⟩ := exists_of_mapM_eq_error h
  exact not_isRejection_of_storeInt hn

theorem not_isRejection_of_stridesBuffersIf {strided : Bool} {names : List String}
    {operands : List Value} {shape : List Int} (hfits : StridesFit engine shape operands)
    (h : outcomeOf (Action.stridesBuffersIf strided names operands shape) engine =
      .error failure) : ¬ failure.IsRejection := by
  unfold Action.stridesBuffersIf at h
  split at h
  · rw [Action.stridesBuffers, outcomeOf_bind, outcomeOf_get, stateAfter_get] at h
    have hinputs : Throws (¬ ·.IsRejection)
        ((names.zip operands).filterMapM (Action.operandStrides engine shape)) := by
      refine .filterMapM _ fun named hmem ↦ ?_
      obtain ⟨name, value⟩ := named
      cases value with
      | array buffer described =>
        refine .bind (.ofExcept fun failure herror ↦ ?_) fun strides ↦
          .bind (throws_stridesBuffer strides) fun _ ↦ .pure _
        obtain rfl := hfits buffer described (List.of_mem_zip hmem).2 failure herror
        exact Failure.not_isRejection_of_kind .index rfl (by decide)
      | _ => exact .pure _
    have hall : Throws (¬ ·.IsRejection) (do
        let inputs ← (names.zip operands).filterMapM (Action.operandStrides engine shape)
        return inputs ++ [("out", ← Action.stridesBuffer (Layout.contiguous shape))]) :=
      .bind hinputs fun inputs ↦ .bind (throws_stridesBuffer _) fun _ ↦ .pure _
    exact hall engine failure h
  · cases h

/-- A kernel cannot be written only if a stride buffer is missing. -/
theorem not_isRejection_of_kernel {operation : Operation} {size : Int}
    {operands : List Kernel.Operand} {out : Kernel.Operand}
    {strides : Option Kernel.Elementwise.StrideSlots}
    (h : operation.kernel size operands out strides = .error failure) : ¬ failure.IsRejection := by
  have hkernel {inputs : List (String × Kernel.Operand)}
      {result : List Kernel.Expression → Kernel.Expression}
      (herror : Kernel.Elementwise.kernel size inputs out result strides = .error failure) :
      ¬ failure.IsRejection := by
    unfold Kernel.Elementwise.kernel at herror
    cases strides with
    | none => cases herror
    | some slots =>
      cases hitems : ((Kernel.Elementwise.arrayInputs inputs).map Prod.fst ++ ["out"]).mapM
          (Kernel.Elementwise.strideItem slots) with
      | ok items =>
        simp only [hitems] at herror
        cases herror
      | error found =>
        simp only [hitems] at herror
        cases herror
        obtain ⟨name, -, hname⟩ := exists_of_mapM_eq_error hitems
        unfold Kernel.Elementwise.strideItem at hname
        split at hname <;> cases hname
        exact Failure.not_isRejection_of_kind .key rfl (by decide)
  unfold Operation.kernel at h
  split at h <;> exact hkernel h

/-- A pass whose operands are rejected has not made a stride buffer yet. -/
theorem stateAfter_elementwisePass_of_rejected {operation : Operation} {operands : List Value}
    {targets : List ElementType} {result : ElementType} {shape : List Int} {strided : Bool}
    {target : Nat} (hfits : StridesFit engine shape operands) (hrejected : failure.IsRejection)
    (h : outcomeOf (Action.elementwisePass operation operands targets result shape strided target)
      engine = .error failure) :
    stateAfter (Action.elementwisePass operation operands targets result shape strided target)
      engine = engine := by
  simp only [Action.elementwisePass, outcomeOf_bind, stateAfter_bind, outcomeOf_get,
    stateAfter_get, outcomeOf_actionOfExcept, stateAfter_actionOfExcept, outcomeOf_array,
    stateAfter_array] at h ⊢
  split at h
  · split at h
    · next helpers hhelpers =>
      split at h
      · next kernel hkernel =>
        split at h
        · cases h
        · next found hlength =>
          cases h
          rw [Layout.contiguousCount_eq_error hlength] at hrejected
          exact absurd hrejected (Failure.not_isRejection_of_kind .overflow rfl (by decide))
      · next found hkernel =>
        cases h
        exact absurd hrejected (not_isRejection_of_kernel hkernel)
    · next found hhelpers =>
      cases h
      exact absurd hrejected (not_isRejection_of_stridesBuffersIf hfits hhelpers)
  · rfl

/-! ### Outputs -/

/-- After an allocation, a number stands for the array it stood for or for the new one. -/
theorem array_allocated (size : Nat) (array : ArrayState) (buffer : Nat) :
    (engine.allocated size array).array buffer = engine.array buffer ∨
      (engine.allocated size array).array buffer = array := by
  change ((engine.arrays ++ [(engine.nextBuffer, array)]).lookup buffer).getD default = _ ∨
    ((engine.arrays ++ [(engine.nextBuffer, array)]).lookup buffer).getD default = _
  rw [List.lookup_append, Engine.array]
  cases engine.arrays.lookup buffer with
  | some found => exact .inl rfl
  | none =>
    by_cases hbuffer : buffer = engine.nextBuffer
    · subst hbuffer
      exact .inr (by simp)
    · have hbeq : (buffer == engine.nextBuffer) = false := by simpa using hbuffer
      exact .inl (by simp [List.lookup_cons, hbeq])

theorem toIntList_ints (ints : List Int) : (Value.list (ints.map .int)).toIntList = .ok ints := by
  change (ints.map Value.int).mapM Value.toInt = .ok ints
  induction ints with
  | nil => rfl
  | cons n rest ih =>
    rw [List.map_cons, List.mapM_cons, ih]
    rfl

/-- A list of integers that is a shape is the list of its extents. -/
theorem shapeInts_of_ofValue {shape : List Int} {extents : List Nat}
    (h : Shape.ofValue (.list (shape.map .int)) = .ok extents) : extents.map Int.ofNat = shape := by
  unfold Shape.ofValue at h
  dsimp only at h
  rw [toIntList_ints] at h
  simp only [bind, Except.bind] at h
  split at h
  · cases h
  · split at h
    · cases h
    · next hpositive =>
      cases h
      rw [List.map_map]
      refine (List.map_congr_left fun extent hmem ↦ ?_).trans (List.map_id' shape)
      have hextent : ¬ extent ≤ 0 := fun hle ↦
        hpositive (List.any_eq_true.mpr ⟨extent, hmem, decide_eq_true hle⟩)
      exact Int.toNat_of_nonneg (by omega)

theorem shapeInts_of_newContiguous {element : ElementType} {shape : List Int} {destination : Nat}
    (h : outcomeOf (Action.newContiguous element shape) engine = .ok destination) (buffer : Nat) :
    ((stateAfter (Action.newContiguous element shape) engine).array buffer).shapeInts =
        (engine.array buffer).shapeInts ∨
      ((stateAfter (Action.newContiguous element shape) engine).array buffer).shapeInts =
        shape := by
  obtain ⟨extents, count, size, hextents, -, -, -, -, hstate⟩ := newContiguous_eq_ok h
  rw [hstate]
  rcases array_allocated size (.fresh element extents
    ((Layout.contiguous (extents.map Int.ofNat)).map Int.toNat) false count size) buffer with
    hsame | hfresh
  · rw [hsame]
    exact .inl rfl
  · rw [hfresh]
    exact .inr (shapeInts_of_ofValue hextents)

/-- What is found under a number after an output has been settled has the shape that was found
before, or that of the output. -/
theorem shapeInts_of_output {out : Value} {shape : List Int} {element : ElementType}
    {inputs : List Nat} {destination : Nat × Option Nat}
    (h : outcomeOf (Action.output out shape element inputs) engine = .ok destination)
    (buffer : Nat) :
    ((stateAfter (Action.output out shape element inputs) engine).array buffer).shapeInts =
        (engine.array buffer).shapeInts ∨
      ((stateAfter (Action.output out shape element inputs) engine).array buffer).shapeInts =
        shape := by
  unfold Action.output at h ⊢
  split at h
  · obtain ⟨fresh, hfresh, -⟩ := outcomeOf_bind_eq_ok.mp h
    rw [stateAfter_bind_of_ok hfresh]
    exact shapeInts_of_newContiguous hfresh buffer
  · next given described =>
    rw [outcomeOf_bind, outcomeOf_array, stateAfter_array] at h
    rw [stateAfter_bind_of_ok (outcomeOf_array _ _), stateAfter_array]
    dsimp only at h ⊢
    split at h
    · cases h
    · next hstrides =>
      rw [if_neg hstrides]
      split at h
      · cases h
      · next hshape =>
        rw [if_neg hshape]
        split at h
        · next hinput =>
          obtain ⟨fresh, hfresh, -⟩ := outcomeOf_bind_eq_ok.mp h
          rw [if_pos hinput, stateAfter_bind_of_ok hfresh]
          exact shapeInts_of_newContiguous hfresh buffer
        · next hinput =>
          rw [if_neg hinput]
          exact .inl rfl
  · cases h

theorem stridesFit_of_output {operands : List Value} {shape : List Int} {element : ElementType}
    {out : Value} {destination : Nat × Option Nat}
    (hshape : Shape.broadcast (((Value.arrays operands).map engine.array).map
      ArrayState.shapeInts) = .ok shape)
    (h : outcomeOf (Action.output out shape element (Value.arrays operands)) engine =
      .ok destination) :
    StridesFit (stateAfter (Action.output out shape element (Value.arrays operands)) engine) shape
      operands := by
  intro buffer described hmem failure herror
  have hshapes : Shape.broadcast (((Value.arrays operands).map fun buffer ↦
      (engine.array buffer).shape).map (·.map Int.ofNat)) = .ok shape := by
    rw [← hshape, List.map_map, List.map_map]
    rfl
  refine Layout.broadcast_eq_error hshapes ?_ herror
  rcases shapeInts_of_output h buffer with hsame | hfresh
  · rw [hsame]
    refine .inl (List.mem_map_of_mem (List.mem_map_of_mem ?_))
    exact List.mem_filterMap.mpr ⟨_, hmem, rfl⟩
  · exact .inr hfresh

/-! ### Plans -/

/-- Where the action is rejected, it has at most allocated buffers. -/
def AllocatesIfRejected {α : Type} (m : Action α) : Prop :=
  ∀ engine failure, failure.IsRejection → outcomeOf m engine = .error failure →
    Allocates engine (stateAfter m engine)

namespace AllocatesIfRejected

variable {α β : Type} {m : Action α} {f : α → Action β}

theorem of_moves (h : Moves Allocates m) : AllocatesIfRejected m := fun engine _ _ _ ↦ h engine

theorem bind (hm : Moves Allocates m) (hf : ∀ a, AllocatesIfRejected (f a)) :
    AllocatesIfRejected (m >>= f) := by
  intro engine failure hrejected h
  rw [outcomeOf_bind] at h
  rw [stateAfter_bind]
  cases houtcome : outcomeOf m engine with
  | error found => exact hm engine
  | ok a =>
    rw [houtcome] at h
    exact trans_of Allocates (hm engine) (hf a _ failure hrejected h)

theorem guard {condition : Prop} [Decidable condition] (failure : Failure)
    (hm : AllocatesIfRejected m) :
    AllocatesIfRejected (if condition then (do throw failure; m) else m) := by
  split
  · exact fun engine _ _ _ ↦ refl_of Allocates engine
  · exact hm

/-- A rejected launch has at most allocated its output. -/
theorem planLaunch (operation : Operation) (operands : List Value) (targets : List ElementType)
    (result : ElementType) (out : Value) :
    AllocatesIfRejected (EngineCall.planLaunch operation operands targets result out) := by
  intro engine failure hrejected h
  simp only [EngineCall.planLaunch, outcomeOf_bind, stateAfter_bind, outcomeOf_get, stateAfter_get,
    outcomeOf_actionOfExcept, stateAfter_actionOfExcept] at h ⊢
  split at h
  · next shape hshape =>
    have houtput : Allocates engine
        (stateAfter (Action.output out shape result (Value.arrays operands)) engine) :=
      Moves.output (.newArray allocates_allocate) _ _ _ _ engine
    split at h
    · next destination hdestination =>
      have hfits := stridesFit_of_output hshape hdestination
      split at h
      · cases h
      · next found hpass =>
        cases h
        rw [stateAfter_elementwisePass_of_rejected hfits hrejected hpass]
        exact houtput
    · exact houtput
  · exact refl_of Allocates engine

end AllocatesIfRejected

/-- A rejected call has at most allocated arrays before its submission. -/
theorem allocates_of_rejected (call : EngineCall) : AllocatesIfRejected call.plan := by
  cases call with
  | elementwise tag operands out =>
    unfold EngineCall.plan EngineCall.planElementwise
    dsimp only
    split
    · exact .of_moves (.throw _)
    · exact .guard _ (.guard _ (.bind (.commonType _) fun _ ↦ .planLaunch _ _ _ _ _))
  | choose condition yes no out =>
    unfold EngineCall.plan EngineCall.planChoose
    dsimp only
    split
    · exact .bind (.commonType _) fun _ ↦ .bind (.array _) fun _ ↦ .planLaunch _ _ _ _ _
    · exact .of_moves (.throw _)
  | reduce tag argument out =>
    exact .of_moves (.planReduce (.newArray allocates_allocate) tag argument out)

end ComputeArray
