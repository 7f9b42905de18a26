import ComputeArray.Proofs.Memory.Access
import ComputeArray.Proofs.Run.Allocation
import ComputeArray.Proofs.Run.Compilation
import ComputeArray.Proofs.Run.Decomposition

/-!
# Tenure of buffers

The tenure of a buffer says whether its array has been released and whether a read-back of it is
under way. `Calm` actions make no submission, give up no array and wait for nothing; they may create
arrays, compile, and move bytes.
-/

set_option autoImplicit false

namespace ComputeArray

namespace Loading

def readBack? : Loading → Option ReadBack
  | .copying readBack => some readBack
  | _ => none

theorem eq_copying_of_readBack? {loading : Loading} {readBack : ReadBack}
    (h : loading.readBack? = some readBack) : loading = .copying readBack := by
  cases loading with
  | copying found =>
    cases h
    rfl
  | _ => cases h

end Loading

namespace Engine

/-- Whether the array of a buffer has been released, and the read-back of it under way. -/
def tenure (engine : Engine) (buffer : Nat) : Option (Bool × Option ReadBack) :=
  (engine.arrays.lookup buffer).map fun array ↦ (array.released, array.loading.readBack?)

/-- There is an array at the buffer that has not been released. -/
def Live (engine : Engine) (buffer : Nat) : Prop :=
  (engine.tenure buffer).map Prod.fst = some false

instance (engine : Engine) (buffer : Nat) : Decidable (engine.Live buffer) :=
  inferInstanceAs (Decidable (_ = _))

/-- No submission was made, no array given up and nothing waited for; arrays may have come to be at
new buffers. -/
structure Calm (before after : Engine) : Prop where
  quiet : before.device.QuietUntil after.device
  count : before.device.buffers.size ≤ after.device.buffers.size
  serial : after.serial = before.serial
  pending : after.pending = before.pending
  generators : after.generators = before.generators
  tenure : ∀ buffer, after.tenure buffer = before.tenure buffer ∨
    before.device.buffers.size < buffer ∧ buffer ≤ after.device.buffers.size ∧
      after.tenure buffer = some (false, none)

namespace Calm

variable {first middle last : Engine} {buffer : Nat}

theorem refl (engine : Engine) : Calm engine engine :=
  ⟨.of_eq rfl, Nat.le_refl _, rfl, rfl, rfl, fun _ ↦ .inl rfl⟩

theorem trans (hfirst : Calm first middle) (hlast : Calm middle last) : Calm first last where
  quiet := hfirst.quiet.trans hlast.quiet
  count := Nat.le_trans hfirst.count hlast.count
  serial := hlast.serial.trans hfirst.serial
  pending := hlast.pending.trans hfirst.pending
  generators := hlast.generators.trans hfirst.generators
  tenure buffer := by
    have hcount := hfirst.count
    have hcount' := hlast.count
    rcases hlast.tenure buffer with hsame | ⟨hnew, hle, hfresh⟩
    · rcases hfirst.tenure buffer with hsame' | ⟨hnew, hle, hfresh⟩
      · exact .inl (hsame.trans hsame')
      · exact .inr ⟨hnew, by omega, hsame.trans hfresh⟩
    · exact .inr ⟨by omega, hle, hfresh⟩

theorem tenure_of_le (h : Calm first last) (hle : buffer ≤ first.device.buffers.size) :
    last.tenure buffer = first.tenure buffer :=
  (h.tenure buffer).resolve_right fun hnew ↦ by omega

theorem live (h : Calm first last) (hlive : first.Live buffer) : last.Live buffer := by
  unfold Live at hlive ⊢
  rcases h.tenure buffer with hsame | ⟨-, -, hfresh⟩
  · rw [hsame, hlive]
  · rw [hfresh]
    rfl

theorem of_arrays (hquiet : first.device.QuietUntil last.device)
    (hcount : first.device.buffers.size ≤ last.device.buffers.size)
    (hserial : last.serial = first.serial) (hpending : last.pending = first.pending)
    (hgenerators : last.generators = first.generators) (harrays : last.arrays = first.arrays) :
    Calm first last :=
  ⟨hquiet, hcount, hserial, hpending, hgenerators,
    fun _ ↦ .inl (by rw [Engine.tenure, Engine.tenure, harrays])⟩

theorem of_compiles (h : Compiles first last) : Calm first last :=
  of_arrays h.quiet (Nat.le_of_eq (by rw [h.buffers])) h.serial h.pending h.generators h.arrays

end Calm

instance : Std.Refl Calm := ⟨Calm.refl⟩

instance : IsTrans Engine Calm := ⟨fun _ _ _ ↦ Calm.trans⟩

variable {engine : Engine} {buffer : Nat}

theorem tenure_of_lookup {array : ArrayState} (h : engine.arrays.lookup buffer = some array) :
    engine.tenure buffer = some (array.released, array.loading.readBack?) := by
  rw [tenure, h]
  rfl

theorem tenure_setArray (engine : Engine) (buffer other : Nat) (array : ArrayState) :
    (engine.setArray buffer array).tenure other =
      if other = buffer then
        (engine.tenure buffer).map fun _ ↦ (array.released, array.loading.readBack?)
      else engine.tenure other := by
  by_cases hother : other = buffer
  · subst hother
    rw [tenure, lookup_setArray, if_pos rfl, tenure, Option.map_map, Option.map_map]
    exact congrArg (Option.map · _) (funext fun _ ↦ by simp)
  · rw [tenure, lookup_setArray_of_ne array hother, if_neg hother, tenure]

/-- Changes of an array that leave its tenure. -/
theorem calm_setArray {array : ArrayState}
    (hreleased : array.released = (engine.array buffer).released)
    (hloading : array.loading.readBack? = (engine.array buffer).loading.readBack?) :
    Calm engine (engine.setArray buffer array) := by
  refine ⟨.of_eq rfl, Nat.le_refl _, rfl, rfl, rfl, fun other ↦ .inl ?_⟩
  rw [tenure_setArray]
  split
  · next hother =>
    subst hother
    rw [tenure, Option.map_map]
    cases hlookup : engine.arrays.lookup other with
    | none => rfl
    | some old =>
      rw [array_of_lookup hlookup] at hreleased hloading
      simp [hreleased, hloading]
  · rfl

end Engine

open Engine

theorem calm_changeArray (buffer : Nat) (change : ArrayState → ArrayState)
    (hreleased : ∀ array, (change array).released = array.released)
    (hloading : ∀ array, (change array).loading.readBack? = array.loading.readBack?) :
    Moves Calm (Action.changeArray buffer change) :=
  fun _ ↦ calm_setArray (hreleased _) (hloading _)

theorem calm_changeDevice {change : Device → Device}
    (hquiet : ∀ device : Device, device.QuietUntil (change device))
    (hcount : ∀ device, (change device).buffers.size = device.buffers.size) :
    Moves Calm (Action.changeDevice change) :=
  fun _ ↦ .of_arrays (hquiet _) (Nat.le_of_eq (hcount _).symm) rfl rfl rfl rfl

/-! ### Arrays -/

theorem calm_markDeviceDirty (buffer : Nat) : Moves Calm (Action.markDeviceDirty buffer) :=
  calm_changeArray buffer _ (fun _ ↦ rfl) fun _ ↦ rfl

theorem calm_send (buffer : Nat) : Moves Calm (Action.send buffer) := by
  have hwrite (bytes : Bytes) : Moves Calm (Action.changeDevice (Device.write buffer bytes)) := by
    refine calm_changeDevice (fun device ↦ ?_)
      fun device ↦ (Device.sameOutside_write device buffer bytes).count
    exact .of_push (congrArg (Array.push · (Call.write buffer bytes))
      (Device.calls_setBytes _ _ _)) trivial
  refine .bind (.array buffer) fun array ↦ ?_
  split
  · exact .pure _
  · exact .bind .assertActive fun _ ↦ .bind (hwrite _) fun _ ↦
      calm_changeArray buffer _ (fun _ ↦ rfl) fun _ ↦ rfl

theorem calm_updateArray {buffer : Nat} {update : ArrayState → Except Failure ArrayState}
    (h : ∀ array updated, update array = .ok updated →
      updated.released = array.released ∧ updated.loading = array.loading) :
    Moves Calm (Action.updateArray buffer update) := by
  intro engine
  rcases updateArray_cases engine buffer update with
    ⟨_, -, -, hstate⟩ | ⟨updated, hupdated, -, hstate⟩
  · rw [hstate]
    exact .refl engine
  · obtain ⟨hreleased, hloading⟩ := h _ _ hupdated
    rw [hstate]
    exact calm_setArray hreleased (by rw [hloading])

/-- Storing leaves the tenure of the array. -/
theorem calm_updateArray_stores {buffer : Nat} {update : ArrayState → Except Failure ArrayState}
    (hstores : ∀ array : ArrayState, array.StoresBy update) :
    Moves Calm (Action.updateArray buffer update) := by
  refine calm_updateArray fun array updated hupdated ↦ ?_
  obtain ⟨storage, -, rfl⟩ := (hstores array).eq_ok hupdated
  exact ⟨rfl, rfl⟩

theorem calm_reshape (buffer : Nat) (extents : List Value) :
    Moves Calm (Action.reshape buffer extents) := by
  refine calm_updateArray fun array updated hupdated ↦ ?_
  obtain ⟨shape, strides, -, rfl⟩ := ArrayState.reshape_eq_ok hupdated
  exact ⟨rfl, rfl⟩

theorem calm_createBuffer (size usage : Nat) :
    Moves Calm (Action.onDevice (Device.createBuffer size usage)) :=
  fun _ ↦ .of_arrays (.of_push rfl trivial)
    (Nat.le_trans (Nat.le_succ _) (Nat.le_of_eq (Array.size_push _).symm)) rfl rfl rfl rfl

theorem calm_createFilledBuffer (bytes : Bytes) (usage : Nat) :
    Moves Calm (Action.onDevice (Device.createFilledBuffer bytes usage)) :=
  fun _ ↦ .of_arrays (.of_push rfl trivial)
    (Nat.le_trans (Nat.le_succ _) (Nat.le_of_eq (Array.size_push _).symm)) rfl rfl rfl rfl

/-- A new array has its own tenure and leaves that of the others. -/
theorem calm_allocated (size : Nat) {array : ArrayState} (hreleased : array.released = false)
    (hloading : array.loading = .idle) (engine : Engine) :
    Calm engine (engine.allocated size array) := by
  have hcount : (engine.allocated size array).device.buffers.size =
      engine.device.buffers.size + 1 := Array.size_push _
  refine ⟨.of_push rfl trivial, by omega, rfl, rfl, rfl, fun buffer ↦ ?_⟩
  cases hlookup : (engine.allocated size array).arrays.lookup buffer with
  | none =>
    have hold : engine.arrays.lookup buffer = none := by
      cases hold : engine.arrays.lookup buffer with
      | none => rfl
      | some old =>
        have hkept := (List.prefix_append engine.arrays [(engine.nextBuffer, array)]
          ).lookup_eq_some hold
        exact absurd (hlookup.symm.trans hkept) (by simp)
    exact .inl (by rw [tenure, tenure, hlookup, hold])
  | some found =>
    rcases lookup_of_lookup_append_singleton hlookup with hold | ⟨rfl, rfl⟩
    · have hkept : engine.arrays.lookup buffer = some found := hold
      exact .inl (by rw [tenure_of_lookup hlookup, tenure_of_lookup hkept])
    · refine .inr ⟨Nat.lt_succ_self _, Nat.le_of_eq hcount.symm, ?_⟩
      rw [tenure_of_lookup hlookup, hreleased, hloading]
      rfl

theorem calm_allocate (element : ElementType) (shape strides : List Nat) (customStrides : Bool)
    (count : Int) :
    Moves Calm (Action.allocate element shape strides customStrides count) := by
  intro engine
  rcases allocate_cases element shape strides customStrides count engine with
    ⟨-, hsame⟩ | ⟨size, -, -, -, hafter⟩
  · rw [hsame]
    exact .refl engine
  · rw [hafter]
    exact calm_allocated size rfl rfl engine

/-- Asking for a load schedules one if none is under way. -/
theorem calm_requestLoad (buffer : Nat) : Moves Calm (Action.requestLoad buffer) := by
  intro engine
  rcases (requestLoad_cases buffer engine).2 with ⟨-, hsame⟩ | ⟨-, hidle, hafter⟩
  · rw [hsame]
    exact .refl engine
  · rw [hafter]
    exact calm_setArray rfl (by rw [hidle]; rfl)

/-! ### Compilation and submissions -/

theorem calm_modesFrom (modes : Value) : Moves Calm (Action.modesFrom modes) :=
  .bind .assertActive fun _ ↦ .ofExcept _

theorem calm_createLayoutFor (modes : Value) : Moves Calm (Action.createLayoutFor modes) :=
  .bind (calm_modesFrom modes) fun modes ↦
    (compiles_createLayout modes).mono fun _ _ ↦ .of_compiles

theorem calm_createPipelineFor (source : String) (modes : Value)
    (constants : List (String × Value)) :
    Moves Calm (Action.createPipelineFor source modes constants) :=
  .bind (calm_modesFrom modes) fun modes ↦
    .bind ((compiles_createPipeline source modes constants).mono fun _ _ ↦ .of_compiles)
      fun _ ↦ .pure _

theorem calm_encode (dispatch : Dispatch) : Moves Calm (Action.encode dispatch) :=
  (compiles_encode dispatch).mono fun _ _ ↦ .of_compiles

theorem calm_prepare (dispatches : List Dispatch) (copies : List (Nat × Nat)) :
    Moves Calm (Action.prepare dispatches copies) :=
  .prepare calm_send (compiles_createEncoder.mono fun _ _ ↦ .of_compiles) calm_encode _ _

end ComputeArray
