import ComputeArray.Proofs.Calls.Failing
import ComputeArray.Proofs.Custody.Operations
import ComputeArray.Proofs.Interface.Calls

/-!
# Passes that read and write apart

No pass of a call binds a buffer both for reading and for writing, whatever array is given for the
output (`apart_of_plan`). The pass of an operation and those of a reduction end in one target, which
is none of the inputs: an output that is also an input is written through a fresh array of the same
size. All else the passes write is as fresh.
-/

set_option autoImplicit false

namespace ComputeArray

open Engine

/-! ### Bindings -/

namespace Dispatch

/-- No buffer is bound for reading and for writing, be it in one slot or in two. -/
def Separates (dispatch : Dispatch) : Prop :=
  ∀ read ∈ dispatch.bindings, ∀ written ∈ dispatch.bindings,
    read.2 ≠ .write → written.2 ≠ .read → read.1.buffer ≠ written.1.buffer

/-- The dispatch writes the array at a buffer, and nothing else. -/
def WritesOnly (dispatch : Dispatch) (buffer : Nat) : Prop :=
  dispatch.bindings.filter (fun binding ↦ binding.2 ≠ .read) = [(.array buffer, .write)]

/-- The dispatch binds the inputs to be read, the target to be written, and stride buffers. -/
def Binds (dispatch : Dispatch) (inputs : List Nat) (target : Nat) (helpers : List Nat) : Prop :=
  dispatch.bindings = inputs.map (fun buffer ↦ (.array buffer, .read)) ++
    [(.array target, .write)] ++ helpers.map fun buffer ↦ (.plain buffer, .read)

namespace Binds

variable {dispatch : Dispatch} {inputs helpers : List Nat} {target : Nat}

theorem writesOnly (h : dispatch.Binds inputs target helpers) : dispatch.WritesOnly target := by
  unfold Binds at h
  simp [WritesOnly, h, List.filter_map, Function.comp_def]

theorem arrays (h : dispatch.Binds inputs target helpers) :
    dispatch.arrays (· ≠ .write) = inputs ∧ dispatch.arrays (· ≠ .read) = [target] := by
  unfold Binds at h
  simp [Dispatch.arrays, h, List.filterMap_map]

theorem mem_cases (h : dispatch.Binds inputs target helpers) {binding : Resource × Mode}
    (hmem : binding ∈ dispatch.bindings) :
    (∃ buffer ∈ inputs, binding = (.array buffer, .read)) ∨ binding = (.array target, .write) ∨
      ∃ buffer ∈ helpers, binding = (.plain buffer, .read) := by
  unfold Binds at h
  rw [h, List.mem_append, List.mem_append] at hmem
  rcases hmem with (hmem | hmem) | hmem
  · obtain ⟨buffer, hbuffer, rfl⟩ := List.mem_map.mp hmem
    exact .inl ⟨buffer, hbuffer, rfl⟩
  · exact .inr (.inl (List.mem_singleton.mp hmem))
  · obtain ⟨buffer, hbuffer, rfl⟩ := List.mem_map.mp hmem
    exact .inr (.inr ⟨buffer, hbuffer, rfl⟩)

/-- A target that is no input and no stride buffer is bound once. -/
theorem separates (h : dispatch.Binds inputs target helpers) (hinputs : target ∉ inputs)
    (hhelpers : target ∉ helpers) : dispatch.Separates := by
  intro read hread written hwritten hreads hwrites heq
  have hbuffer : written.1.buffer = target := by
    rcases h.mem_cases hwritten with ⟨_, -, rfl⟩ | rfl | ⟨_, -, rfl⟩
    · exact absurd rfl hwrites
    · rfl
    · exact absurd rfl hwrites
  rw [hbuffer] at heq
  rcases h.mem_cases hread with ⟨buffer, hmem, rfl⟩ | rfl | ⟨buffer, hmem, rfl⟩
  · exact hinputs (heq ▸ hmem)
  · exact hreads rfl
  · exact hhelpers (heq ▸ hmem)

theorem readsPlain (h : dispatch.Binds inputs target helpers) : dispatch.ReadsPlain := by
  intro buffer mode hmem
  rcases h.mem_cases hmem with ⟨_, -, heq⟩ | heq | ⟨_, -, heq⟩ <;> cases heq
  rfl

end Binds

end Dispatch

/-- Passes that read the inputs and end in the target, each reading and writing apart. What else
they read and write are buffers from `first` on. -/
structure BindsApart (first : Nat) (inputs : List Nat) (target : Nat) (dispatches : List Dispatch) :
    Prop where
  separates : ∀ dispatch ∈ dispatches, dispatch.Separates
  readsPlain : ∀ dispatch ∈ dispatches, dispatch.ReadsPlain
  last : ∃ last, dispatches.getLast? = some last ∧ last.WritesOnly target
  read : inputs ⊆ readBy dispatches
  reads : ∀ buffer ∈ readBy dispatches, buffer ∈ inputs ∨ first ≤ buffer
  written : target ∈ writtenBy dispatches []
  writes : ∀ buffer ∈ writtenBy dispatches [], buffer = target ∨ first ≤ buffer

namespace BindsApart

variable {first later source destination target : Nat} {inputs others helpers : List Nat}
  {dispatch : Dispatch} {rest : List Dispatch}

/-- What a pass in front adds to what is read and written. -/
theorem binds_cons (h : dispatch.Binds inputs target helpers) (rest : List Dispatch) :
    readBy (dispatch :: rest) = inputs ++ readBy rest ∧
      writtenBy (dispatch :: rest) [] = target :: writtenBy rest [] := by
  obtain ⟨hreads, hwrites⟩ := h.arrays
  rw [readBy, writtenBy, List.flatMap_cons, List.flatMap_cons, hreads, hwrites]
  exact ⟨rfl, rfl⟩

/-- One pass. -/
theorem single (h : dispatch.Binds inputs target helpers) (hinputs : target ∉ inputs)
    (hhelpers : target ∉ helpers) (first : Nat) : BindsApart first inputs target [dispatch] := by
  obtain ⟨hreads, hwrites⟩ := binds_cons h []
  replace hreads := hreads.trans (List.append_nil inputs)
  refine ⟨?_, ?_, ⟨dispatch, rfl, h.writesOnly⟩, ?_, fun buffer hmem ↦ ?_, ?_, fun buffer hmem ↦ ?_⟩
  · simpa using h.separates hinputs hhelpers
  · simpa using h.readsPlain
  · exact hreads ▸ List.Subset.refl _
  · exact .inl (hreads ▸ hmem)
  · exact hwrites ▸ List.mem_cons_self
  · rw [hwrites] at hmem
    exact .inl (List.mem_singleton.mp hmem)

/-- A pass into a fresh array, from which the others go on. -/
theorem cons (h : dispatch.Binds [source] destination []) (hapart : destination ≠ source)
    (hnew : first ≤ destination) (hlater : first ≤ later)
    (hrest : BindsApart later [destination] target rest) :
    BindsApart first [source] target (dispatch :: rest) := by
  obtain ⟨hreads, hwrites⟩ := binds_cons h rest
  obtain ⟨last, hlast, hwritten⟩ := hrest.last
  refine ⟨?_, ?_, ⟨last, ?_, hwritten⟩, ?_, fun buffer hmem ↦ ?_, ?_, fun buffer hmem ↦ ?_⟩
  · exact List.forall_mem_cons.mpr ⟨h.separates (by simpa using hapart) (by simp), hrest.separates⟩
  · exact List.forall_mem_cons.mpr ⟨h.readsPlain, hrest.readsPlain⟩
  · rw [List.getLast?_cons, hlast]
    rfl
  · rw [hreads]
    exact List.cons_subset_cons source (List.nil_subset _)
  · rw [hreads] at hmem
    rcases List.mem_cons.mp hmem with rfl | hmem
    · exact .inl List.mem_cons_self
    · rcases hrest.reads buffer hmem with hread | hfresh
      · exact .inr (List.mem_singleton.mp hread ▸ hnew)
      · exact .inr (Nat.le_trans hlater hfresh)
  · rw [hwrites]
    exact List.mem_cons_of_mem _ hrest.written
  · rw [hwrites] at hmem
    rcases List.mem_cons.mp hmem with rfl | hmem
    · exact .inr hnew
    · exact (hrest.writes buffer hmem).imp id (Nat.le_trans hlater)

theorem mono (h : BindsApart later inputs target rest) (hlater : first ≤ later)
    (hsame : ∀ buffer, buffer ∈ inputs ↔ buffer ∈ others) :
    BindsApart first others target rest where
  separates := h.separates
  readsPlain := h.readsPlain
  last := h.last
  read buffer hmem := h.read ((hsame buffer).mpr hmem)
  reads buffer hmem := (h.reads buffer hmem).imp (hsame buffer).mp (Nat.le_trans hlater)
  written := h.written
  writes buffer hmem := (h.writes buffer hmem).imp id (Nat.le_trans hlater)

end BindsApart

/-! ### Passes of calls -/

variable {engine : Engine} {operation : Operation} {element : ElementType} {source target : Nat}

/-- The arrays among the operands are bound one after the other. -/
theorem Planning.bindings_eq {first : Nat} {items : List (String × Value × ElementType)}
    {plan : OperandPlan} (h : Planning engine first items plan) :
    plan.bindings = (Value.arrays (items.map fun item ↦ item.2.1)).map
      fun buffer ↦ (.array buffer, .read) := by
  induction h with
  | nil => rfl
  | array _ ih => exact congrArg (List.cons _) ih
  | @scalar _ name value _ target rest _ noArray _ _ ih =>
    have hskip : Value.arrays (value :: rest.map fun item ↦ item.2.1) =
        Value.arrays (rest.map fun item ↦ item.2.1) := by
      cases value with
      | array buffer described => exact absurd rfl (noArray buffer described)
      | _ => rfl
    rw [ih, List.map_cons, hskip]

theorem binds_of_elementwisePass {operands : List Value} {targets : List ElementType}
    {result : ElementType} {shape : List Int} {strided : Bool} {pass : Dispatch}
    {helpers : List Nat} (hcount : operands.length = operation.template.operands.length)
    (htypes : targets.length = operands.length)
    (h : outcomeOf (Action.elementwisePass operation operands targets result shape strided target)
      engine = .ok (pass, helpers)) : pass.Binds (Value.arrays operands) target helpers := by
  obtain ⟨plan, named, kernel, hmade, -, rfl, -⟩ := made_of_elementwisePass h
  obtain ⟨hplanning, -⟩ := hmade.planning hcount htypes
  have hoperands : (operation.template.operands.zip (operands.zip targets)).map
      (fun item ↦ item.2.1) = operands := by
    have hvalues : (operation.template.operands.zip (operands.zip targets)).map Prod.snd =
        operands.zip targets := List.map_snd_zip (by rw [List.length_zip]; omega)
    conv_rhs => rw [← List.map_fst_zip (Nat.le_of_eq htypes.symm), ← hvalues, List.map_map]
    rfl
  rw [Dispatch.Binds, hmade.bindings, hplanning.bindings_eq, hoperands]

theorem binds_foldDispatch (engine : Engine) (operation : Operation) (element : ElementType)
    (source destination : Nat) (n lanes : Int) :
    (Action.foldDispatch engine operation element source destination n lanes).Binds [source]
      destination [] :=
  rfl

/-- The passes of a reduction hand fresh arrays on. -/
theorem bindsApart_of_foldDispatches {width n : Int} {dispatches : List Dispatch}
    {between : List Nat} (hsource : source < engine.nextBuffer)
    (htarget : target < engine.nextBuffer) (hapart : target ≠ source)
    (h : outcomeOf (Action.foldDispatches operation element target source
      (Reduction.passes width n)) engine = .ok (dispatches, between)) :
    BindsApart engine.nextBuffer [source] target dispatches ∧
      ∀ buffer ∈ between, engine.nextBuffer ≤ buffer := by
  induction n using Reduction.passes.induct width generalizing engine source dispatches between with
  | case1 n hseveral ih =>
    rw [Reduction.passes, dif_pos hseveral] at h
    obtain ⟨destination, later, between', hdestination, hlater, rfl, rfl, -⟩ :=
      foldDispatches_cons_eq_ok h
    rcases foldDestination_eq_ok hdestination with ⟨hone, -⟩ | ⟨hmore, hmade, hstate⟩
    · omega
    · obtain ⟨extents, count, size, -, -, -, -, rfl, hallocated⟩ := newContiguous_eq_ok hmade
      rw [hstate, hallocated] at hlater
      obtain ⟨hrest, hbetween⟩ := ih (nextBuffer_allocated _ _ engine ▸ Nat.lt_succ_self _)
        (nextBuffer_allocated _ _ engine ▸ Nat.lt_succ_of_lt htarget) (Nat.ne_of_lt htarget) hlater
      rw [nextBuffer_allocated] at hrest hbetween
      refine ⟨.cons (binds_foldDispatch _ _ _ _ _ _ _) (by omega) (Nat.le_refl _) (Nat.le_succ _)
        hrest, fun buffer hmem ↦ ?_⟩
      rw [if_neg (by omega)] at hmem
      rcases List.mem_cons.mp hmem with rfl | hmem
      · exact Nat.le_refl _
      · exact Nat.le_of_succ_le (hbetween buffer hmem)
  | case2 n hseveral =>
    rw [Reduction.passes, dif_neg hseveral] at h
    obtain ⟨destination, later, between', hdestination, hlater, rfl, rfl, -⟩ :=
      foldDispatches_cons_eq_ok h
    cases hlater
    rcases foldDestination_eq_ok hdestination with ⟨hone, rfl, hsame⟩ | ⟨hmore, -⟩
    · rw [if_pos hone]
      exact ⟨.single (binds_foldDispatch _ _ _ _ _ _ _) (by simpa using hapart) (by simp) _,
        fun _ hmem ↦ absurd hmem List.not_mem_nil⟩
    · exact absurd hmore hseveral

/-! ### Plans of calls -/

namespace Engine

/-- Arrays and buffers may have come to what there was, which has not changed. -/
structure Enlarges (before after : Engine) : Prop extends Calm before after where
  arrays : ∀ buffer array, before.arrays.lookup buffer = some array →
    after.arrays.lookup buffer = some array
  bytes : ∀ buffer, buffer < before.nextBuffer →
    after.device.bytesOf buffer = before.device.bytesOf buffer

instance : Std.Refl Enlarges := ⟨fun engine ↦ ⟨.refl engine, fun _ _ h ↦ h, fun _ _ ↦ rfl⟩⟩

theorem Enlarges.le {before after : Engine} (h : Enlarges before after) :
    before.nextBuffer ≤ after.nextBuffer :=
  Nat.succ_le_succ h.count

instance : IsTrans Engine Enlarges := ⟨fun _ _ _ hfirst hlast ↦
  ⟨hfirst.toCalm.trans hlast.toCalm, fun buffer array h ↦
    hlast.arrays buffer array (hfirst.arrays buffer array h), fun buffer hlt ↦
      (hlast.bytes buffer (Nat.lt_of_lt_of_le hlt hfirst.le)).trans (hfirst.bytes buffer hlt)⟩⟩

theorem enlarges_allocate (element : ElementType) (shape strides : List Nat)
    (customStrides : Bool) (count : Int) :
    Moves Enlarges (Action.allocate element shape strides customStrides count) := by
  intro engine
  have hallocates := allocates_allocate element shape strides customStrides count engine
  exact ⟨calm_allocate _ _ _ _ _ engine, hallocates.arrays, fun buffer hlt ↦
    hallocates.bytes buffer (Nat.le_of_lt_succ hlt)⟩

theorem enlarges_stridesBuffer (strides : List Int) :
    Moves Enlarges (Action.stridesBuffer strides) :=
  .bind (.ofExcept _) fun _ ↦ .bind .assertActive fun _ ↦ fun engine ↦
    ⟨calm_createFilledBuffer _ _ engine, fun _ _ h ↦ h, fun _ hlt ↦
      Device.bytesOf_push _ (Nat.le_of_lt_succ hlt)⟩

end Engine

/-- What becomes of the output a call is given: without one the target is fresh, one that is no
input is the target, and one that is also an input gets a copy of a fresh target of its size. -/
inductive Resolves (engine planned : Engine) (inputs : List Nat) :
    Value → Nat → Option Nat → Prop where
  | fresh {target : Nat} (new : engine.nextBuffer ≤ target) :
      Resolves engine planned inputs .none target none
  | direct {buffer : Nat} {described : String} (apart : buffer ∉ inputs) :
      Resolves engine planned inputs (.array buffer described) buffer none
  | shared {buffer target : Nat} {described : String} (shared : buffer ∈ inputs)
      (new : engine.nextBuffer ≤ target)
      (made : ∃ array, planned.arrays.lookup target = some array ∧ array.released = false)
      (size : planned.device.sizeOf target = engine.device.sizeOf buffer) :
      Resolves engine planned inputs (.array buffer described) target (some buffer)

section Output

variable {first planned : Engine} {inputs others loose : List Nat} {out : Value}
  {given : Option Nat} {shape : List Int}

/-- A new array of the type and the shape of an array has the size of it. -/
theorem sizeOf_newContiguous {array : ArrayState} {bytes : Nat} (hsized : array.Sized bytes)
    (hplain : array.customStrides = false)
    (h : outcomeOf (Action.newContiguous array.element array.shapeInts) engine = .ok target) :
    (stateAfter (Action.newContiguous array.element array.shapeInts)
      engine).device.sizeOf target = bytes := by
  obtain ⟨extents, count, size, hextents, hcount, hsize, -, rfl, hafter⟩ := newContiguous_eq_ok h
  have hlength := hsized.count hplain
  rw [shapeInts_of_ofValue hextents] at hcount
  rw [ArrayState.length, hcount] at hlength
  cases hlength
  rw [hsized.bytes] at hsize
  cases hsize
  rw [hafter]
  exact congrArg Bytes.size (Device.bytesOf_push_new _ _)

theorem resolves_of_outputs (hcustody : engine.Custody loose)
    (hout : ∀ buffer described, out = .array buffer described →
      ∃ array, engine.arrays.lookup buffer = some array)
    (h : Outputs engine shape element inputs out target given first) :
    Resolves engine first inputs out target given := by
  cases h with
  | fresh made =>
    obtain ⟨_, _, _, -, -, -, -, rfl, -⟩ := newContiguous_eq_ok made
    exact .fresh (Nat.le_refl _)
  | direct plain shaped apart => exact .direct apart
  | @shared buffer _ described plain shaped shared made =>
    obtain ⟨array, hlookup⟩ := hout buffer described rfl
    rw [array_of_lookup hlookup] at plain shaped made ⊢
    subst shaped
    have hsize := sizeOf_newContiguous (hcustody.sized _ (mem_of_lookup hlookup)) plain made
    obtain ⟨_, _, _, -, -, -, -, rfl, hafter⟩ := newContiguous_eq_ok made
    refine .shared shared (Nat.le_refl _) ?_ hsize
    rw [hafter]
    exact ⟨_, hcustody.numbered_arrays.lookup_allocated, rfl⟩

theorem Resolves.enlarge (h : Resolves engine first inputs out target given)
    (htarget : target < first.nextBuffer) (henlarges : Enlarges first planned)
    (hsame : ∀ buffer, buffer ∈ inputs ↔ buffer ∈ others) :
    Resolves engine planned others out target given := by
  cases h with
  | fresh new => exact .fresh new
  | direct apart => exact .direct fun hmem ↦ apart ((hsame _).mpr hmem)
  | shared shared new made size =>
    obtain ⟨array, hlookup, hunreleased⟩ := made
    refine .shared ((hsame _).mp shared) new ⟨array, henlarges.arrays _ _ hlookup, hunreleased⟩ ?_
    rw [Device.sizeOf, henlarges.bytes _ htarget]
    exact size

/-- Of the arrays there were, the target or what it is copied into is the output. -/
theorem Resolves.out_iff (h : Resolves engine planned inputs out target given) {buffer : Nat}
    (hold : buffer < engine.nextBuffer) :
    buffer = target ∨ given = some buffer ↔ ∃ described, out = .array buffer described := by
  cases h with
  | fresh new =>
    refine ⟨?_, nofun⟩
    rintro (rfl | hnone)
    · exact absurd new (Nat.not_le_of_lt hold)
    · cases hnone
  | @direct out described apart =>
    constructor
    · rintro (rfl | hnone)
      · exact ⟨described, rfl⟩
      · cases hnone
    · rintro ⟨_, heq⟩
      cases heq
      exact .inl rfl
  | @shared out _ described shared new made size =>
    constructor
    · rintro (rfl | hsome)
      · exact absurd new (Nat.not_le_of_lt hold)
      · cases hsome
        exact ⟨described, rfl⟩
    · rintro ⟨_, heq⟩
      cases heq
      exact .inr rfl

/-- A target is copied into an output that is also an input. -/
theorem Resolves.of_given {buffer : Nat}
    (h : Resolves engine planned inputs out target (some buffer)) :
    buffer ∈ inputs ∧ engine.nextBuffer ≤ target ∧ (∃ described, out = .array buffer described) ∧
      (∃ array, planned.arrays.lookup target = some array ∧ array.released = false) ∧
      planned.device.sizeOf target = engine.device.sizeOf buffer := by
  cases h with
  | @shared _ _ described shared new made size => exact ⟨shared, new, ⟨described, rfl⟩, made, size⟩

/-- The target of an output exists, and it is no input. -/
theorem resolves_of_output (hcustody : engine.Custody loose)
    (hinputs : ∀ input ∈ inputs, ∃ array, engine.arrays.lookup input = some array)
    (hout : ∀ buffer described, out = .array buffer described →
      ∃ array, engine.arrays.lookup buffer = some array)
    (h : outcomeOf (Action.output out shape element inputs) engine = .ok (target, given)) :
    let first := stateAfter (Action.output out shape element inputs) engine
    Enlarges engine first ∧ first.Custody loose ∧ target < first.nextBuffer ∧ target ∉ inputs ∧
      Resolves engine first inputs out target given := by
  obtain ⟨hnumbered, -, ⟨array, hlookup⟩, hapart⟩ :=
    output_eq_ok hcustody.numbered_arrays hinputs hout h
  have hfound : Value.arrays [out] ⊆ engine.arrays.map Prod.fst := by
    intro buffer hmem
    obtain ⟨described, hvalue⟩ := Value.mem_arrays_iff.mp hmem
    obtain ⟨old, hold⟩ := hout buffer described (List.mem_singleton.mp hvalue).symm
    exact List.mem_map_of_mem (mem_of_lookup hold)
  have hkept := KeepsCustody.output shape element inputs (List.Subset.refl _) loose _ engine
    (hcustody.holding hfound)
  rw [h] at hkept
  exact ⟨Moves.output (.newArray enlarges_allocate) _ _ _ _ engine, hkept.custody,
    hnumbered _ _ hlookup,
    hapart, resolves_of_outputs hcustody hout (outputs_of_output h)⟩

/-- Stride buffers are fresh. -/
theorem le_of_mem_helpers {operands : List Value} {targets : List ElementType}
    {result : ElementType} {strided : Bool} {pass : Dispatch} {helpers : List Nat} {helper : Nat}
    (hcustody : engine.Custody loose)
    (h : outcomeOf (Action.elementwisePass operation operands targets result shape strided target)
      engine = .ok (pass, helpers)) (hmem : helper ∈ helpers) : engine.nextBuffer ≤ helper := by
  have hmade := KeepsCustody.elementwisePass operation operands targets result shape strided target
    loose _ engine (hcustody.holding (List.nil_subset _))
  rw [h] at hmade
  exact (hmade.made helper hmem).1

end Output

namespace EngineCall

/-- The operands of a call. -/
def operands : EngineCall → List Value
  | elementwise _ operands _ => operands
  | choose condition yes no _ => [condition, yes, no]
  | reduce _ argument _ => [argument]

/-- The arrays among them. -/
def inputs (call : EngineCall) : List Nat := Value.arrays call.operands

end EngineCall

/-- What a call in the state `engine` has planned in the state `planned`. -/
structure CallPlan.Apart (plan : CallPlan) (call : EngineCall) (engine planned : Engine) :
    Prop where
  enlarges : Enlarges engine planned
  binds : BindsApart engine.nextBuffer call.inputs plan.target plan.dispatches
  between : ∀ buffer ∈ plan.between, engine.nextBuffer ≤ buffer ∧ buffer ≠ plan.target
  resolves : Resolves engine planned call.inputs call.out plan.target plan.given

theorem EngineCall.Launches.inputs {call : EngineCall} {operands : List Value}
    {targets : List ElementType} {result : ElementType} {out : Value}
    (h : call.Launches engine operation operands targets result out) :
    call.out = out ∧ ∀ buffer, buffer ∈ Value.arrays operands ↔ buffer ∈ call.inputs := by
  cases h with
  | elementwise found noFold count typed =>
    refine ⟨rfl, fun buffer ↦ ?_⟩
    exact ((ordered_perm _ _).filterMap _).mem_iff
  | choose typed => exact ⟨rfl, fun _ ↦ Iff.rfl⟩

theorem EngineCall.mem_values {call : EngineCall} {value : Value} :
    value ∈ call.values ↔ value = call.out ∨ value ∈ call.operands := by
  cases call with
  | elementwise tag arguments given => exact List.mem_cons
  | choose condition yes no given =>
    simp only [values, operands, out, List.mem_cons, List.not_mem_nil, or_false]
    tauto
  | reduce tag argument given =>
    simp only [values, operands, out, List.mem_cons, List.not_mem_nil, or_false]
    exact or_comm

/-- An output that is given is one of the arrays of a call. -/
theorem EngineCall.mem_arrays_of_out {call : EngineCall} {buffer : Nat} {described : String}
    (h : call.out = .array buffer described) : buffer ∈ Value.arrays call.values :=
  mem_arrays (mem_values.mpr (.inl h.symm))

theorem EngineCall.mem_arrays_of_inputs {call : EngineCall} {buffer : Nat}
    (h : buffer ∈ call.inputs) : buffer ∈ Value.arrays call.values := by
  obtain ⟨described, hvalue⟩ := Value.mem_arrays_iff.mp h
  exact mem_arrays (mem_values.mpr (.inr hvalue))

/-- Whatever a call is given, its passes read and write apart, and end in an array that is no
input. -/
theorem apart_of_plan {call : EngineCall} {plan : CallPlan} {loose : List Nat}
    (hcustody : engine.Custody loose)
    (hadmits : ∀ buffer ∈ Value.arrays call.values,
      ∃ array, engine.arrays.lookup buffer = some array)
    (h : outcomeOf call.plan engine = .ok plan) :
    plan.Apart call engine (stateAfter call.plan engine) := by
  have hinputs : ∀ input ∈ call.inputs, ∃ array, engine.arrays.lookup input = some array :=
    fun input hmem ↦ hadmits input (EngineCall.mem_arrays_of_inputs hmem)
  have hout : ∀ buffer described, call.out = .array buffer described →
      ∃ array, engine.arrays.lookup buffer = some array :=
    fun buffer described heq ↦ hadmits buffer (EngineCall.mem_arrays_of_out heq)
  have hsettles := EngineCall.settles_of_plan h
  generalize stateAfter call.plan engine = planned at hsettles ⊢
  cases hsettles with
  | @launch _ operation operands targets result out shape target given pass helpers launches shaped
      output made =>
    obtain ⟨hcount, htypes⟩ := launches.counts
    obtain ⟨rfl, hsame⟩ := launches.inputs
    obtain ⟨hfirst, hkept, htarget, hapart, hresolves⟩ := resolves_of_output hcustody
      (fun input hmem ↦ hinputs input ((hsame input).mp hmem)) hout output
    set first := stateAfter (Action.output call.out shape result (Value.arrays operands)) engine
    have henlarges : Enlarges first (stateAfter (Action.elementwisePass operation operands targets
        result shape (Launch.isStrided ((Value.arrays operands).map engine.array) shape) target)
          first) :=
      Moves.elementwisePass enlarges_stridesBuffer _ _ _ _ _ _ _ first
    have hhelpers : target ∉ helpers := fun hmem ↦
      Nat.not_le_of_lt htarget (le_of_mem_helpers hkept made hmem)
    exact ⟨trans_of Enlarges hfirst henlarges,
      (BindsApart.single (binds_of_elementwisePass hcount htypes made) hapart hhelpers
        engine.nextBuffer).mono (Nat.le_refl _) hsame, nofun,
      hresolves.enlarge htarget henlarges hsame⟩
  | @fold tag source described out operation shape n target given dispatches between found isFold
      length output single made =>
    obtain ⟨hfirst, -, htarget, hapart, hresolves⟩ :=
      resolves_of_output hcustody hinputs hout output
    set first := stateAfter (Action.output out shape (engine.array source).element [source]) engine
    have hsource : source < first.nextBuffer := by
      obtain ⟨array, hlookup⟩ := hinputs source List.mem_cons_self
      exact Nat.lt_of_lt_of_le (hcustody.numbered_arrays _ _ hlookup) hfirst.le
    have henlarges : Enlarges first (stateAfter (Action.foldDispatches operation
        (engine.array source).element target source (Reduction.passes first.workgroupSize n))
          first) :=
      Moves.foldDispatches (.newArray enlarges_allocate) _ _ _ _ _ first
    obtain ⟨hbinds, hbetween⟩ := bindsApart_of_foldDispatches hsource htarget
      (fun heq ↦ hapart (List.mem_singleton.mpr heq)) made
    refine ⟨trans_of Enlarges hfirst henlarges, hbinds.mono hfirst.le fun _ ↦ Iff.rfl,
      fun buffer hmem ↦ ?_, hresolves.enlarge htarget henlarges fun _ ↦ Iff.rfl⟩
    have hnew := hbetween buffer hmem
    exact ⟨Nat.le_trans hfirst.le hnew, Nat.ne_of_gt (Nat.lt_of_lt_of_le htarget hnew)⟩

end ComputeArray
