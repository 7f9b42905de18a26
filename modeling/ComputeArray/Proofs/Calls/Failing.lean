import ComputeArray.Proofs.Calls.Rejection
import ComputeArray.Proofs.Launch.Plan
import ComputeArray.Proofs.Run.Reachable

/-!
# Failing calls

A call that fails has not submitted anything, and all it may have done to the arrays there are is to
send host copies that the device had not seen (`unharmed_of_failing`). A call that is rejected for
its operands stops before its submission, when it has at most allocated buffers.
-/

set_option autoImplicit false

namespace ComputeArray

open Engine

/-! ### Arrays after a failure -/

namespace Engine

/-- Nothing has happened to an array and its buffer, or the host copy had news and has been sent. -/
def KeptOrSent (before after : Engine) (buffer : Nat) (old : ArrayState) : Prop :=
  (after.arrays.lookup buffer = some old ∧
      after.device.bytesOf buffer = before.device.bytesOf buffer) ∨
    (old.hostDirty = true ∧ after.arrays.lookup buffer = some { old with hostDirty := false } ∧
      after.device.bytesOf buffer = old.storage)

/-- Nothing has been submitted, mapped or destroyed, and arrays have been kept or sent. -/
structure Unharmed (before after : Engine) : Prop where
  serial : after.serial = before.serial
  quiet : before.device.QuietUntil after.device
  arrays : ∀ buffer old, before.arrays.lookup buffer = some old →
    KeptOrSent before after buffer old

/-- If copies fit, they still do, and no harm has been done. -/
def Harmless (before after : Engine) : Prop :=
  before.Fitting → after.Fitting ∧ Unharmed before after

variable {engine first middle last : Engine} {buffer : Nat} {old : ArrayState}

/-- Being sent does not change the content of an array. -/
theorem KeptOrSent.content (h : KeptOrSent first last buffer old)
    (hold : first.arrays.lookup buffer = some old) :
    last.content buffer = first.content buffer := by
  rcases h with ⟨hlookup, hbytes⟩ | ⟨hdirty, hlookup, hbytes⟩
  · rw [content_of_lookup hlookup, content_of_lookup hold, hbytes]
  · rw [content_of_lookup hlookup, content_of_lookup hold, if_pos hdirty, hbytes]
    rfl

theorem KeptOrSent.trans (hfirst : KeptOrSent first middle buffer old)
    (hlast : ∀ old, middle.arrays.lookup buffer = some old → KeptOrSent middle last buffer old) :
    KeptOrSent first last buffer old := by
  rcases hfirst with ⟨hlookup, hbytes⟩ | ⟨hdirty, hlookup, hbytes⟩
  · rcases hlast old hlookup with ⟨hlookup', hbytes'⟩ | hsent
    · exact .inl ⟨hlookup', hbytes'.trans hbytes⟩
    · exact .inr hsent
  · rcases hlast _ hlookup with ⟨hlookup', hbytes'⟩ | ⟨hagain, -⟩
    · exact .inr ⟨hdirty, hlookup', hbytes'.trans hbytes⟩
    · cases hagain

theorem Unharmed.refl (engine : Engine) : Unharmed engine engine :=
  ⟨rfl, .of_eq rfl, fun _ _ hold ↦ .inl ⟨hold, rfl⟩⟩

theorem Unharmed.trans (hfirst : Unharmed first middle) (hlast : Unharmed middle last) :
    Unharmed first last :=
  ⟨hlast.serial.trans hfirst.serial, hfirst.quiet.trans hlast.quiet,
    fun buffer old hold ↦ (hfirst.arrays buffer old hold).trans (hlast.arrays buffer)⟩

instance : Std.Refl Harmless := ⟨fun engine h ↦ ⟨h, .refl engine⟩⟩

instance : IsTrans Engine Harmless := ⟨fun _ _ _ hfirst hlast hfitting ↦ by
  obtain ⟨hmiddle, h⟩ := hfirst hfitting
  obtain ⟨hafter, h'⟩ := hlast hmiddle
  exact ⟨hafter, h.trans h'⟩⟩

theorem Harmless.of_device
    (hconfined : Confined (fun _ ↦ False) first last) (hserial : last.serial = first.serial)
    (hquiet : first.device.QuietUntil last.device)
    (harrays : ∀ buffer array, first.arrays.lookup buffer = some array →
      last.arrays.lookup buffer = some array)
    (hbytes : ∀ buffer, buffer ≤ first.device.buffers.size →
      last.device.bytesOf buffer = first.device.bytesOf buffer) : Harmless first last :=
  fun hfitting ↦ ⟨(hconfined hfitting).1, hserial, hquiet, fun buffer old hold ↦
    .inl ⟨harrays buffer old hold, hbytes buffer (hfitting buffer old hold).le⟩⟩

theorem Harmless.of_compiles (h : Compiles first last) : Harmless first last :=
  .of_device (.of_compiles h) h.serial h.quiet (fun _ _ hold ↦ by rw [h.arrays, hold])
    fun buffer _ ↦ by rw [Device.bytesOf, Device.bytesOf, h.buffers]

end Engine

theorem harmless_send (buffer : Nat) : Moves Harmless (Action.send buffer) := by
  intro engine
  rcases send_cases engine buffer with ⟨-, -, h⟩ | ⟨-, -, h⟩ | ⟨hdirty, -, h⟩
  · rw [h]
    exact refl_of Harmless engine
  · rw [h]
    exact refl_of Harmless engine
  · rw [h]
    intro hfitting
    have hfound := exists_lookup_of_hostDirty hdirty
    have hfits := hfitting buffer _ hfound
    have hsent : Confined (fun _ ↦ False) engine (engine.sent buffer) := confined_sent hdirty
    have hcalls : (engine.sent buffer).device.calls =
        engine.device.calls.push (.write buffer (engine.array buffer).storage) :=
      congrArg (fun calls : Array Call ↦ calls.push _) (Device.calls_setBytes _ _ _)
    refine ⟨(hsent hfitting).1, rfl, .of_push hcalls trivial, fun other old hold ↦ ?_⟩
    by_cases hother : other = buffer
    · subst hother
      obtain rfl := Option.some.inj (hfound.symm.trans hold)
      refine .inr ⟨hdirty, lookup_sent hfound, ?_⟩
      change (engine.device.write other _).bytesOf other = _
      rw [Device.write, Device.bytesOf_record, Device.bytesOf_setBytes_self _ hfits.pos hfits.le,
        Bytes.overwrite_of_size_eq hfits.size]
    · refine .inl ⟨(lookup_setArray_of_ne _ hother).trans hold, ?_⟩
      exact (Device.sameOutside_write engine.device buffer _).bytes other hother

theorem harmless_prepare (dispatches : List Dispatch) (copies : List (Nat × Nat)) :
    Moves Harmless (Action.prepare dispatches copies) :=
  .prepare harmless_send (compiles_createEncoder.mono fun _ _ ↦ .of_compiles)
    (fun dispatch ↦ (compiles_encode dispatch).mono fun _ _ ↦ .of_compiles) _ _

/-- A submission that fails has done no more than prepare itself. -/
theorem harmless_of_submit {dispatches : List Dispatch} {helpers : List Nat}
    {copies : List (Nat × Nat)} {engine : Engine} {failure : Failure}
    (h : outcomeOf (Action.submit dispatches helpers copies) engine = .error failure) :
    Harmless engine (stateAfter (Action.submit dispatches helpers copies) engine) := by
  have hprepared := harmless_prepare dispatches copies engine
  simp only [Action.submit, outcomeOf_bind, stateAfter_bind, stateAfter_assertActive] at h ⊢
  cases hactive : outcomeOf Action.assertActive engine with
  | error _ => exact refl_of Harmless engine
  | ok _ =>
    rw [hactive] at h
    dsimp only at h ⊢
    cases hcommands : outcomeOf (Action.prepare dispatches copies) engine with
    | error _ => exact hprepared
    | ok commands =>
      rw [hcommands] at h
      have hrest : Throws (fun _ ↦ False) (do
          let serial ← Action.handOver dispatches copies commands
          Action.settle serial helpers
          return serial) :=
        .bind (throws_handOver _ _ _) fun serial ↦ .bind (throws_settle _ _) fun _ ↦ .pure _
      refine (hrest (stateAfter (Action.prepare dispatches copies) engine) failure ?_).elim
      simpa only [outcomeOf_bind] using h

theorem harmless_allocate (element : ElementType) (shape strides : List Nat)
    (customStrides : Bool) (count : Int) :
    Moves Harmless (Action.allocate element shape strides customStrides count) := by
  intro engine
  have hallocates := allocates_allocate element shape strides customStrides count engine
  obtain ⟨calls, hcalls, hallocations⟩ := hallocates.calls
  exact .of_device (confined_allocate _ _ _ _ _ engine) hallocates.serial
    ⟨calls, hcalls, fun call hmem ↦ (hallocations call hmem).isQuiet⟩ hallocates.arrays
    hallocates.bytes

theorem harmless_stridesBuffer (strides : List Int) :
    Moves Harmless (Action.stridesBuffer strides) :=
  .bind (.ofExcept _) fun _ ↦ .bind .assertActive fun _ ↦ fun _ ↦
    .of_device (.of_push (fun _ ↦ rfl) rfl) rfl (.of_push rfl trivial) (fun _ _ h ↦ h)
      fun _ hle ↦ Device.bytesOf_push _ hle

/-! ### Constants -/

/-- Constants are floats or integers, so they may be part of a key. -/
def Value.IsNumber (value : Value) : Prop := (∃ x, value = .float x) ∨ ∃ n, value = .int n

theorem check_eq_ok {constants : List (String × Value)}
    (h : ∀ constant ∈ constants, constant.2.IsNumber) : TunedKey.check constants = .ok () := by
  induction constants with
  | nil => rfl
  | cons constant rest ih =>
    obtain ⟨name, value⟩ := constant
    have hrest := ih fun later hmem ↦ h later (List.mem_cons_of_mem _ hmem)
    rcases h _ List.mem_cons_self with ⟨x, hx⟩ | ⟨n, hn⟩
    · cases hx
      exact hrest
    · cases hn
      exact hrest

theorem isNumber_of_constantOf {element : ElementType} {value constant : Value}
    (h : OperandPlan.constantOf element value = .ok constant) : constant.IsNumber := by
  unfold OperandPlan.constantOf at h
  split at h
  · split at h
    · next scalar hscalar =>
      cases hdouble : scalar.toDouble with
      | error failure =>
        rw [hdouble] at h
        cases h
      | ok x =>
        rw [hdouble] at h
        cases h
        exact .inl ⟨x, rfl⟩
    · cases h
  · cases hint : value.scalarToInt with
    | error failure =>
      rw [hint] at h
      cases h
    | ok n =>
      rw [hint] at h
      cases h
      exact .inr ⟨n, rfl⟩

theorem isNumber_of_foldlM {engine : Engine} {items : List (String × Value × ElementType)}
    {plan last : OperandPlan}
    (hfold : items.foldlM (fun plan (name, value, element) => plan.add engine name value element)
      plan = .ok last)
    (h : ∀ constant ∈ plan.constants, constant.2.IsNumber) :
    ∀ constant ∈ last.constants, constant.2.IsNumber := by
  induction items generalizing plan with
  | nil =>
    cases hfold
    exact h
  | cons item rest ih =>
    obtain ⟨name, value, target⟩ := item
    rw [List.foldlM_cons] at hfold
    dsimp only at hfold
    cases hadd : plan.add engine name value target with
    | error failure =>
      rw [hadd] at hfold
      cases hfold
    | ok next =>
      rw [hadd] at hfold
      refine ih hfold fun constant hmem ↦ ?_
      rcases OperandPlan.add_cases hadd with ⟨_, _, _, rfl⟩ | ⟨-, stored, hstored, rfl⟩
      · exact h constant hmem
      · rcases List.mem_append.mp hmem with hmem | hmem
        · exact h constant hmem
        · obtain rfl := List.mem_singleton.mp hmem
          exact isNumber_of_constantOf hstored

theorem isNumber_of_elementwisePass {engine : Engine} {operation : Operation}
    {operands : List Value} {targets : List ElementType} {result : ElementType} {shape : List Int}
    {strided : Bool} {target : Nat} {pass : Dispatch} {helpers : List Nat}
    (h : outcomeOf (Action.elementwisePass operation operands targets result shape strided target)
      engine = .ok (pass, helpers)) : ∀ constant ∈ pass.constants, constant.2.IsNumber := by
  simp only [Action.elementwisePass, outcomeOf_bind_eq_ok, outcomeOf_get, Action.ofExcept,
    outcomeOf_ofExcept, outcomeOf_pure, Except.ok.injEq, exists_eq_left'] at h
  obtain ⟨plan, hplan, out, -, slots, -, kernel, -, lanes, -, hpass⟩ := h
  obtain ⟨rfl, -⟩ := Prod.mk.inj hpass
  exact isNumber_of_foldlM hplan (by simp [OperandPlan.empty])

theorem isNumber_of_foldDispatches {engine : Engine} {operation : Operation}
    {element : ElementType} {target source : Nat} {passes : List (Int × Int)}
    {dispatches : List Dispatch} {between : List Nat}
    (h : outcomeOf (Action.foldDispatches operation element target source passes) engine =
      .ok (dispatches, between)) :
    ∀ dispatch ∈ dispatches, ∀ constant ∈ dispatch.constants, constant.2.IsNumber := by
  refine forall_of_foldDispatches (fun engine source destination n lanes constant hconstant ↦ ?_) h
  simp only [Action.foldDispatch, List.mem_cons, List.not_mem_nil, or_false] at hconstant
  rcases hconstant with rfl | rfl
  · exact .inr ⟨n, rfl⟩
  · exact .inr ⟨lanes, rfl⟩

/-- The constants of all passes of a call are numbers. -/
theorem isNumber_of_plan {engine : Engine} {call : EngineCall} {plan : CallPlan}
    (h : outcomeOf call.plan engine = .ok plan) :
    ∀ dispatch ∈ plan.dispatches, ∀ constant ∈ dispatch.constants, constant.2.IsNumber := by
  have hsettles := EngineCall.settles_of_plan h
  generalize stateAfter call.plan engine = planned at hsettles
  cases hsettles with
  | launch launches shaped output made =>
    intro dispatch hmem
    obtain rfl := List.mem_singleton.mp hmem
    exact isNumber_of_elementwisePass made
  | fold found isFold length output single made => exact isNumber_of_foldDispatches made

/-! ### Failing calls -/

/-- Carrying out a plan fails only in its submission. -/
theorem error_of_carryOut {plan : CallPlan} {engine : Engine} {failure : Failure}
    (h : outcomeOf plan.carryOut engine = .error failure) :
    outcomeOf (Action.submit plan.dispatches plan.helpers plan.copies) engine = .error failure ∧
      stateAfter plan.carryOut engine =
        stateAfter (Action.submit plan.dispatches plan.helpers plan.copies) engine := by
  unfold CallPlan.carryOut at h ⊢
  rw [outcomeOf_bind] at h
  rw [stateAfter_bind]
  cases hsubmit : outcomeOf (Action.submit plan.dispatches plan.helpers plan.copies) engine with
  | error found =>
    rw [hsubmit] at h
    cases h
    exact ⟨rfl, rfl⟩
  | ok serial =>
    rw [hsubmit] at h
    have hsettle : Throws (fun _ ↦ False) (Action.settleOutput plan.target plan.given) := by
      unfold Action.settleOutput
      split
      · exact .pure _
      · exact .bind (.update _) fun _ ↦ .pure _
    exact (Throws.bind (.update _) (fun _ ↦ hsettle) _ failure h).elim

/-- A call that fails in a reachable state has not submitted anything. All arrays have the content
and the flags they had, but host copies may have been sent; and if its operands were rejected, it
has at most allocated arrays and not written anything. -/
theorem unharmed_of_failing {engine : Engine} (hreachable : engine.Reachable) {call : EngineCall}
    {failure : Failure} (h : outcomeOf call.action engine = .error failure) :
    Unharmed engine (stateAfter call.action engine) ∧
      (∀ buffer old, engine.arrays.lookup buffer = some old →
        (stateAfter call.action engine).content buffer = engine.content buffer) ∧
      (failure.IsRejection → Allocates engine (stateAfter call.action engine)) := by
  suffices hfailing : Harmless engine (stateAfter call.action engine) ∧
      (failure.IsRejection → Allocates engine (stateAfter call.action engine)) by
    obtain ⟨-, hunharmed⟩ := hfailing.1 hreachable.fitting
    exact ⟨hunharmed, fun buffer old hold ↦ (hunharmed.arrays buffer old hold).content hold,
      hfailing.2⟩
  have hplanned : Harmless engine (stateAfter call.plan engine) :=
    Moves.plan (.newArray harmless_allocate) harmless_stridesBuffer call engine
  rw [EngineCall.action_eq, outcomeOf_bind] at h
  rw [EngineCall.action_eq, stateAfter_bind]
  cases hplan : outcomeOf call.plan engine with
  | error found =>
    rw [hplan] at h
    cases h
    exact ⟨hplanned, fun hrejected ↦ allocates_of_rejected call engine failure hrejected hplan⟩
  | ok plan =>
    rw [hplan] at h
    dsimp only at h ⊢
    obtain ⟨hsubmit, hstate⟩ := error_of_carryOut h
    rw [hstate]
    refine ⟨trans_of Harmless hplanned (harmless_of_submit hsubmit), fun hrejected ↦ ?_⟩
    have hdevice : failure.IsDeviceFailure :=
      throws_submit plan.helpers plan.copies
        (fun dispatch hmem ↦ check_eq_ok (isNumber_of_plan hplan dispatch hmem)) _ _ hsubmit
    exact (hdevice.not_isRejection hrejected).elim

/-- Two arrays with unsent ones, on a device whose compiler has begun to refuse all sources. -/
def refusingEngine : Engine :=
  (Engine.create (.createWith (fun _ _ held ↦ held) [] ⟨256, 256, 65535⟩ none)
    ⟨.highPerformance, .bool true, 256, .none⟩).afterAll
      [.allocate .f32 [2] [1] false 2, .allocate .f32 [2] [1] false 2, .setValue 1 (.int 1) [],
        .setValue 2 (.int 1) [], .setCompiler (.refusing "out of memory")]

/-- A call that stores sums of the first array in the second one. -/
def refusedCall : EngineCall := .elementwise "add" [.array 1 "", .array 1 ""] (.array 2 "")

/-- The kernel of the call is refused after its operand has been sent. The output keeps its ones. -/
theorem unharmed_of_failing_refused :
    (refusingEngine.array 2).hostDirty = true ∧
      ∃ failure, outcomeOf refusedCall.action refusingEngine = .error failure ∧
        failure.kind = .compilation ∧
        Unharmed refusingEngine (stateAfter refusedCall.action refusingEngine) ∧
        (∀ buffer old, refusingEngine.arrays.lookup buffer = some old →
          (stateAfter refusedCall.action refusingEngine).content buffer =
            refusingEngine.content buffer) ∧
        (failure.IsRejection →
          Allocates refusingEngine (stateAfter refusedCall.action refusingEngine)) := by
  have hkind : (outcomeOf refusedCall.action refusingEngine).mapError Failure.kind =
      .error .compilation := by
    decide +kernel
  cases h : outcomeOf refusedCall.action refusingEngine with
  | ok buffer =>
    rw [h] at hkind
    cases hkind
  | error failure =>
    rw [h] at hkind
    have hreachable : refusingEngine.Reachable := ⟨_, _, _, _, _, _, fun _ _ ↦ trivial, rfl⟩
    exact ⟨by decide +kernel, failure, rfl, Except.error.inj hkind,
      unharmed_of_failing hreachable h⟩

end ComputeArray
