import ComputeArray.Engine.Lifetime
import ComputeArray.Proofs.Device.Memory
import ComputeArray.Proofs.Lookup
import ComputeArray.Proofs.Run.Elementary

/-!
# Coherence of the copies of an array

An array has a copy in host memory and one on the device. `Engine.content` reads both as one: the
host copy if the host has news, else the device buffer. `Engine.Coherent` is the invariant that
makes this the content of the array for all who read it: no array has news on both sides, and
without news the copies hold the same bytes. `Steady` says that an action keeps the invariant and
changes the content of no array but some.
-/

set_option autoImplicit false

namespace ComputeArray

/-- The copies of an array at a buffer of the device fit together. -/
structure ArrayState.CoherentOn (array : ArrayState) (device : Device) (buffer : Nat) : Prop where
  pos : 1 ≤ buffer
  le : buffer ≤ device.buffers.size
  size : array.storage.size = device.sizeOf buffer
  exclusive : ¬ (array.hostDirty = true ∧ array.deviceDirty = true)
  agreeing : array.hostDirty = false → array.deviceDirty = false →
    array.storage.Same (device.bytesOf buffer)
  idle : array.loading = .idle

theorem ArrayState.CoherentOn.of_bytesOf_eq {array : ArrayState} {device device' : Device}
    {buffer : Nat} (h : array.CoherentOn device buffer)
    (hsize : device.buffers.size ≤ device'.buffers.size)
    (hbytes : device'.bytesOf buffer = device.bytesOf buffer) :
    array.CoherentOn device' buffer where
  pos := h.pos
  le := Nat.le_trans h.le hsize
  size := by rw [h.size, Device.sizeOf, Device.sizeOf, hbytes]
  exclusive := h.exclusive
  agreeing hhost hdevice := by rw [hbytes]; exact h.agreeing hhost hdevice
  idle := h.idle

namespace Engine

/-- What an array holds: its host copy if the host has news, else its device buffer. -/
def content (engine : Engine) (buffer : Nat) : Bytes :=
  if (engine.array buffer).hostDirty = true then (engine.array buffer).storage
  else engine.device.bytesOf buffer

/-- The array as it would be if its content were its only copy. -/
def single (engine : Engine) (buffer : Nat) : ArrayState :=
  { engine.array buffer with storage := engine.content buffer, deviceDirty := false }

/-- The copies of all arrays fit together. -/
def Coherent (engine : Engine) : Prop :=
  ∀ buffer array, engine.arrays.lookup buffer = some array →
    array.CoherentOn engine.device buffer

/-- Coherence is kept, arrays only come to be among the touched buffers, and all arrays outside of
these keep their content. -/
def Steady (touched : Nat → Prop) (before after : Engine) : Prop :=
  before.Coherent → after.Coherent ∧
    ∀ buffer array, after.arrays.lookup buffer = some array → ¬ touched buffer →
      (∃ old, before.arrays.lookup buffer = some old) ∧
        after.content buffer = before.content buffer

variable {touched wider : Nat → Prop} {engine first middle last : Engine} {buffer : Nat}
  {array : ArrayState}

namespace Steady

theorem refl (engine : Engine) : Steady touched engine engine :=
  fun h ↦ ⟨h, fun _ array hlookup _ ↦ ⟨⟨array, hlookup⟩, rfl⟩⟩

theorem trans (hfirst : Steady touched first middle) (hlast : Steady touched middle last) :
    Steady touched first last := by
  intro hcoherent
  obtain ⟨hmiddle, hframe⟩ := hfirst hcoherent
  obtain ⟨hafter, hframe'⟩ := hlast hmiddle
  refine ⟨hafter, fun buffer array hlookup htouched ↦ ?_⟩
  obtain ⟨⟨old, hold⟩, hcontent⟩ := hframe' buffer array hlookup htouched
  obtain ⟨hfound, hcontent'⟩ := hframe buffer old hold htouched
  exact ⟨hfound, hcontent.trans hcontent'⟩

theorem mono (h : Steady touched first last) (hwider : ∀ buffer, touched buffer → wider buffer) :
    Steady wider first last := by
  intro hcoherent
  obtain ⟨hafter, hframe⟩ := h hcoherent
  exact ⟨hafter, fun buffer array hlookup hbuffer ↦
    hframe buffer array hlookup fun hin ↦ hbuffer (hwider buffer hin)⟩

end Steady

instance : Std.Refl (Steady touched) := ⟨Steady.refl⟩

instance : IsTrans Engine (Steady touched) := ⟨fun _ _ _ ↦ Steady.trans⟩

/-! ### Arrays by their buffers -/

theorem array_of_lookup (h : engine.arrays.lookup buffer = some array) :
    engine.array buffer = array := by
  rw [Engine.array, h]
  rfl

theorem content_of_lookup (h : engine.arrays.lookup buffer = some array) :
    engine.content buffer =
      if array.hostDirty = true then array.storage else engine.device.bytesOf buffer := by
  rw [content, array_of_lookup h]

/-- Only an array of the engine can have news. -/
theorem exists_lookup_of_hostDirty (h : (engine.array buffer).hostDirty = true) :
    engine.arrays.lookup buffer = some (engine.array buffer) := by
  unfold Engine.array at h ⊢
  cases hlookup : engine.arrays.lookup buffer with
  | some array => rfl
  | none =>
    rw [hlookup] at h
    cases h

theorem exists_lookup_of_deviceDirty (h : (engine.array buffer).deviceDirty = true) :
    engine.arrays.lookup buffer = some (engine.array buffer) := by
  unfold Engine.array at h ⊢
  cases hlookup : engine.arrays.lookup buffer with
  | some array => rfl
  | none =>
    rw [hlookup] at h
    cases h

/-- A load under way is that of an array of the engine. -/
theorem exists_lookup_of_loading (h : (engine.array buffer).loading ≠ .idle) :
    engine.arrays.lookup buffer = some (engine.array buffer) := by
  unfold Engine.array at h ⊢
  cases hlookup : engine.arrays.lookup buffer with
  | some array => rfl
  | none =>
    rw [hlookup] at h
    exact absurd rfl h

theorem lookup_setArray (engine : Engine) (buffer other : Nat) (array : ArrayState) :
    (engine.setArray buffer array).arrays.lookup other =
      (engine.arrays.lookup other).map fun old ↦ if other = buffer then array else old :=
  lookup_map_replace engine.arrays buffer other array

theorem lookup_setArray_of_ne {other : Nat} (array : ArrayState) (h : other ≠ buffer) :
    (engine.setArray buffer array).arrays.lookup other = engine.arrays.lookup other := by
  rw [lookup_setArray]
  simp [h]

theorem lookup_setArray_self {old : ArrayState} (array : ArrayState)
    (h : engine.arrays.lookup buffer = some old) :
    (engine.setArray buffer array).arrays.lookup buffer = some array := by
  rw [lookup_setArray, h]
  simp

theorem array_setArray_self {old : ArrayState} (array : ArrayState)
    (h : engine.arrays.lookup buffer = some old) :
    (engine.setArray buffer array).array buffer = array :=
  array_of_lookup (lookup_setArray_self array h)

theorem setArray_setArray (engine : Engine) (buffer : Nat) (array array' : ArrayState) :
    (engine.setArray buffer array).setArray buffer array' = engine.setArray buffer array' := by
  have harrays : ∀ entry : Nat × ArrayState,
      (if entry.1 = buffer then array' else if entry.1 = buffer then array else entry.2) =
        if entry.1 = buffer then array' else entry.2 := by
    intro entry
    split <;> rfl
  simp [setArray, harrays]

/-! ### Steady actions -/

/-- What arrays and device buffers are like. -/
def memory (engine : Engine) := (fun buffer ↦ engine.arrays.lookup buffer, engine.device.buffers)

theorem memory_eq_iff {first last : Engine} :
    last.memory = first.memory ↔
      (∀ buffer, last.arrays.lookup buffer = first.arrays.lookup buffer) ∧
        last.device.buffers = first.device.buffers := by
  simp only [memory, Prod.mk.injEq, funext_iff]

theorem bytesOf_eq_of_memory_eq (h : last.memory = first.memory) (buffer : Nat) :
    last.device.bytesOf buffer = first.device.bytesOf buffer := by
  rw [Device.bytesOf, Device.bytesOf, (memory_eq_iff.mp h).2]

theorem array_eq_of_memory_eq (h : last.memory = first.memory) (buffer : Nat) :
    last.array buffer = first.array buffer := by
  rw [Engine.array, Engine.array, (memory_eq_iff.mp h).1]

theorem content_eq_of_memory_eq (h : last.memory = first.memory) (buffer : Nat) :
    last.content buffer = first.content buffer := by
  rw [content, content, array_eq_of_memory_eq h, bytesOf_eq_of_memory_eq h]

theorem memory_setArray_congr (h : last.memory = first.memory) (buffer : Nat)
    (array : ArrayState) :
    (last.setArray buffer array).memory = (first.setArray buffer array).memory := by
  rw [memory_eq_iff] at h ⊢
  refine ⟨fun other ↦ ?_, h.2⟩
  rw [lookup_setArray, lookup_setArray, h.1]

/-- Replacing an array by itself changes nothing. -/
theorem memory_setArray_of_lookup (h : engine.arrays.lookup buffer = some array) :
    (engine.setArray buffer array).memory = engine.memory := by
  rw [memory_eq_iff]
  refine ⟨fun other ↦ ?_, rfl⟩
  by_cases hother : other = buffer
  · subst hother
    rw [lookup_setArray_self _ h, h]
  · rw [lookup_setArray_of_ne _ hother]

/-- A change of the device that leaves the buffers there are alone. -/
theorem Steady.of_device
    (harrays : ∀ buffer, last.arrays.lookup buffer = first.arrays.lookup buffer)
    (hcount : first.device.buffers.size ≤ last.device.buffers.size)
    (hbytes : ∀ buffer, buffer ≤ first.device.buffers.size →
      last.device.bytesOf buffer = first.device.bytesOf buffer) : Steady touched first last := by
  intro hcoherent
  refine ⟨fun buffer array hlookup ↦ ?_, fun buffer array hlookup _ ↦ ?_⟩
  · rw [harrays] at hlookup
    have hcopies := hcoherent buffer array hlookup
    exact hcopies.of_bytesOf_eq hcount (hbytes buffer hcopies.le)
  · have hold := hlookup
    rw [harrays] at hold
    refine ⟨⟨array, hold⟩, ?_⟩
    rw [content_of_lookup hlookup, content_of_lookup hold,
      hbytes buffer (hcoherent buffer array hold).le]

theorem Steady.of_memory_eq (h : last.memory = first.memory) : Steady touched first last := by
  obtain ⟨harrays, hbuffers⟩ := memory_eq_iff.mp h
  exact .of_device harrays (Nat.le_of_eq (by rw [hbuffers])) fun buffer _ ↦
    bytesOf_eq_of_memory_eq h buffer

/-- An action that minds one array and leaves the others and their buffers alone. -/
theorem Steady.of_array (buffer : Nat)
    (hcount : first.device.buffers.size ≤ last.device.buffers.size)
    (hlookup : ∀ other, other ≠ buffer → last.arrays.lookup other = first.arrays.lookup other)
    (hbytes : ∀ other, other ≠ buffer → other ≤ first.device.buffers.size →
      last.device.bytesOf other = first.device.bytesOf other)
    (hself : ∀ array, last.arrays.lookup buffer = some array → first.Coherent →
      array.CoherentOn last.device buffer ∧ (¬ touched buffer →
        (∃ old, first.arrays.lookup buffer = some old) ∧
          last.content buffer = first.content buffer)) :
    Steady touched first last := by
  intro hcoherent
  refine ⟨fun other array hfound ↦ ?_, fun other array hfound htouched ↦ ?_⟩
  · by_cases hother : other = buffer
    · subst hother
      exact (hself array hfound hcoherent).1
    · rw [hlookup other hother] at hfound
      have hcoherent' := hcoherent other array hfound
      exact hcoherent'.of_bytesOf_eq hcount (hbytes other hother hcoherent'.le)
  · by_cases hother : other = buffer
    · subst hother
      exact (hself array hfound hcoherent).2 htouched
    · rw [hlookup other hother] at hfound
      refine ⟨⟨array, hfound⟩, ?_⟩
      rw [content, content, Engine.array, Engine.array, hlookup other hother,
        hbytes other hother (hcoherent other array hfound).le]

/-! ### Sending -/

/-- The engine after the host copy of an array has been written to the device. -/
def sent (engine : Engine) (buffer : Nat) : Engine :=
  { engine with device := engine.device.write buffer (engine.array buffer).storage }.setArray buffer
    { engine.array buffer with hostDirty := false }

/-- Sending writes the host copy if it has news and the device is not lost, and else does
nothing. -/
theorem send_cases (engine : Engine) (buffer : Nat) :
    ((engine.array buffer).hostDirty = false ∧
      outcomeOf (Action.send buffer) engine = .ok ⟨⟩ ∧
      stateAfter (Action.send buffer) engine = engine) ∨
    ((engine.array buffer).hostDirty = true ∧
      (∃ failure, outcomeOf (Action.send buffer) engine = .error failure) ∧
      stateAfter (Action.send buffer) engine = engine) ∨
    ((engine.array buffer).hostDirty = true ∧
      outcomeOf (Action.send buffer) engine = .ok ⟨⟩ ∧
      stateAfter (Action.send buffer) engine = engine.sent buffer) := by
  simp only [Action.send, outcomeOf_bind, stateAfter_bind, outcomeOf_array, stateAfter_array]
  cases hdirty : (engine.array buffer).hostDirty with
  | false => exact .inl ⟨rfl, rfl, rfl⟩
  | true =>
    refine .inr ?_
    simp only [Bool.not_true, Bool.false_eq_true, if_false, outcomeOf_bind, stateAfter_bind,
      stateAfter_assertActive]
    cases outcomeOf Action.assertActive engine with
    | error failure => exact .inl ⟨trivial, ⟨failure, rfl⟩, rfl⟩
    | ok checked => exact .inr ⟨trivial, rfl, rfl⟩

theorem lookup_sent {old : ArrayState} (h : engine.arrays.lookup buffer = some old) :
    (engine.sent buffer).arrays.lookup buffer =
      some { engine.array buffer with hostDirty := false } := by
  unfold sent
  rw [lookup_setArray]
  simp [h]

theorem array_sent_of_ne {other : Nat} (h : other ≠ buffer) :
    (engine.sent buffer).array other = engine.array other := by
  have hlookup : (engine.sent buffer).arrays.lookup other = engine.arrays.lookup other :=
    lookup_setArray_of_ne _ h
  rw [Engine.array, Engine.array, hlookup]

theorem steady_sent (h : (engine.array buffer).hostDirty = true) :
    Steady touched engine (engine.sent buffer) := by
  have hfound := exists_lookup_of_hostDirty h
  have hdevice := Device.sameOutside_write engine.device buffer (engine.array buffer).storage
  refine .of_array buffer (Nat.le_of_eq hdevice.count.symm)
    (fun other hother ↦ lookup_setArray_of_ne _ hother)
    (fun other hother _ ↦ hdevice.bytes other hother) ?_
  intro array hlookup hcoherent
  have hold := hcoherent buffer _ hfound
  have hbytes : (engine.device.write buffer (engine.array buffer).storage).bytesOf buffer =
      (engine.array buffer).storage := by
    rw [Device.write, Device.bytesOf_record, Device.bytesOf_setBytes_self _ hold.pos hold.le,
      Bytes.overwrite_of_size_eq hold.size]
  obtain rfl := Option.some.inj (hlookup.symm.trans (lookup_sent hfound))
  refine ⟨⟨hold.pos, ?_, ?_, ?_, ?_, hold.idle⟩, fun _ ↦ ⟨⟨_, hfound⟩, ?_⟩⟩
  · exact hdevice.count ▸ hold.le
  · exact hold.size.trans (hdevice.size buffer).symm
  · rintro ⟨hhost, -⟩
    cases hhost
  · intro _ _
    exact hbytes ▸ .refl _
  · rw [content_of_lookup hlookup, content, if_pos h]
    exact hbytes

theorem steady_send (buffer : Nat) : Moves (Steady touched) (Action.send buffer) := by
  intro engine
  rcases send_cases engine buffer with ⟨-, -, h⟩ | ⟨-, -, h⟩ | ⟨hdirty, -, h⟩
  · rw [h]
    exact .refl engine
  · rw [h]
    exact .refl engine
  · rw [h]
    exact steady_sent hdirty

/-- An array that has been sent has no news on the host. -/
theorem hostDirty_of_send {result : PUnit}
    (h : outcomeOf (Action.send buffer) engine = .ok result) :
    ((stateAfter (Action.send buffer) engine).array buffer).hostDirty = false := by
  rcases send_cases engine buffer with
    ⟨hdirty, -, hstate⟩ | ⟨-, ⟨failure, hfailure⟩, -⟩ | ⟨hdirty, -, hstate⟩
  · rw [hstate]
    exact hdirty
  · rw [hfailure] at h
    cases h
  · rw [hstate, array_of_lookup (lookup_sent (exists_lookup_of_hostDirty hdirty))]

/-- Sending twice is sending once. -/
theorem send_send (engine : Engine) (buffer : Nat) :
    outcomeOf (do Action.send buffer; Action.send buffer) engine =
        outcomeOf (Action.send buffer) engine ∧
      stateAfter (do Action.send buffer; Action.send buffer) engine =
        stateAfter (Action.send buffer) engine := by
  rw [outcomeOf_bind, stateAfter_bind]
  cases houtcome : outcomeOf (Action.send buffer) engine with
  | error failure => exact ⟨rfl, rfl⟩
  | ok done =>
    have hclean := hostDirty_of_send houtcome
    rcases send_cases (stateAfter (Action.send buffer) engine) buffer with
      ⟨-, hdone, hstate⟩ | ⟨hdirty, -⟩ | ⟨hdirty, -⟩
    · exact ⟨hdone, hstate⟩
    · rw [hclean] at hdirty
      cases hdirty
    · rw [hclean] at hdirty
      cases hdirty

end Engine

end ComputeArray
