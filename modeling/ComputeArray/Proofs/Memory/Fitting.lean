import ComputeArray.Proofs.Memory.Run

/-!
# Copies that fit

Whatever happens to an engine, also while loads are under way, the host copy of an array has the
size of its device buffer, and so has the staging buffer of a copy on its way (`Engine.Fitting`).
`Engine.Confined` says more of an action: outside of some buffers it at most sends what the host has
news of, so arrays keep their content and other buffers their bytes. `confined_after` gives these
buffers for every primitive.
-/

set_option autoImplicit false

namespace ComputeArray

open Engine

/-- The copies of an array at a buffer of the device have one size, and at most one of the two that
are kept has news. -/
structure ArrayState.FitsOn (array : ArrayState) (device : Device) (buffer : Nat) : Prop where
  pos : 1 ≤ buffer
  le : buffer ≤ device.buffers.size
  size : array.storage.size = device.sizeOf buffer
  exclusive : ¬ (array.hostDirty = true ∧ array.deviceDirty = true)
  staging : ∀ readBack, array.loading = .copying readBack →
    readBack.staging ≤ device.buffers.size ∧ device.sizeOf readBack.staging = device.sizeOf buffer

namespace Device

/-- The later device has the buffers of the earlier one, of the same sizes. -/
structure Extends (before after : Device) : Prop where
  count : before.buffers.size ≤ after.buffers.size
  size : ∀ buffer, buffer ≤ before.buffers.size → after.sizeOf buffer = before.sizeOf buffer

theorem Extends.of_buffers_eq {before after : Device} (h : after.buffers = before.buffers) :
    Extends before after :=
  ⟨Nat.le_of_eq (by rw [h]), fun _ _ ↦ by rw [sizeOf, sizeOf, bytesOf, bytesOf, h]⟩

theorem SameOutside.extends {written : Nat → Prop} {before after : Device}
    (h : SameOutside written before after) : Extends before after :=
  ⟨Nat.le_of_eq h.count.symm, fun buffer _ ↦ h.size buffer⟩

theorem Extends.of_push {before after : Device} {bytes : Bytes}
    (h : after.buffers = before.buffers.push bytes) : Extends before after := by
  refine ⟨by rw [h, Array.size_push]; exact Nat.le_succ _, fun buffer hle ↦ ?_⟩
  have hbytes := @bytesOf_push before buffer bytes hle
  unfold sizeOf
  rw [← hbytes, bytesOf, bytesOf, h]

theorem extends_createBuffer (size usage : Nat) (device : Device) :
    device.Extends (device.createBuffer size usage).2 :=
  .of_push rfl

end Device

variable {touched : Nat → Prop} {engine first middle last : Engine} {buffer : Nat}
  {array old new : ArrayState}

theorem ArrayState.FitsOn.of_extends {device device' : Device} (h : array.FitsOn device buffer)
    (hextends : device.Extends device') : array.FitsOn device' buffer where
  pos := h.pos
  le := Nat.le_trans h.le hextends.count
  size := h.size.trans (hextends.size buffer h.le).symm
  exclusive := h.exclusive
  staging readBack hloading := by
    obtain ⟨hle, hsize⟩ := h.staging readBack hloading
    exact ⟨Nat.le_trans hle hextends.count,
      by rw [hextends.size _ hle, hextends.size _ h.le, hsize]⟩

namespace Engine

/-- The copies of all arrays fit. -/
def Fitting (engine : Engine) : Prop :=
  ∀ buffer array, engine.arrays.lookup buffer = some array → array.FitsOn engine.device buffer

/-- The later array is the earlier one, perhaps sent, reshaped or released in between. -/
structure Untroubled (before after : Engine) (buffer : Nat) (old new : ArrayState) : Prop where
  storage : new.storage = old.storage
  deviceDirty : new.deviceDirty = old.deviceDirty
  version : new.version = old.version
  loading : new.loading = old.loading
  hostDirty : new.hostDirty = true → old.hostDirty = true
  content : after.content buffer = before.content buffer

/-- A buffer that is left alone: an array at it is untroubled, and without an array it keeps its
bytes. -/
structure Spared (before after : Engine) (buffer : Nat) : Prop where
  array : ∀ new, after.arrays.lookup buffer = some new →
    ∃ old, before.arrays.lookup buffer = some old ∧ Untroubled before after buffer old new
  plain : before.arrays.lookup buffer = none →
    after.device.bytesOf buffer = before.device.bytesOf buffer

/-- Copies still fit, and all buffers there were are left alone but some. -/
def Confined (touched : Nat → Prop) (before after : Engine) : Prop :=
  before.Fitting → after.Fitting ∧ before.device.buffers.size ≤ after.device.buffers.size ∧
    ∀ buffer, buffer ≤ before.device.buffers.size → ¬ touched buffer → Spared before after buffer

theorem Untroubled.refl (engine : Engine) (buffer : Nat) (array : ArrayState) :
    Untroubled engine engine buffer array array :=
  ⟨rfl, rfl, rfl, rfl, id, rfl⟩

theorem Spared.refl (engine : Engine) (buffer : Nat) : Spared engine engine buffer :=
  ⟨fun new h ↦ ⟨new, h, .refl engine buffer new⟩, fun _ ↦ rfl⟩

theorem Spared.trans (hfirst : Spared first middle buffer) (hlast : Spared middle last buffer) :
    Spared first last buffer where
  array new hnew := by
    obtain ⟨between, hbetween, h'⟩ := hlast.array new hnew
    obtain ⟨old, hold, h⟩ := hfirst.array between hbetween
    exact ⟨old, hold, h'.storage.trans h.storage, h'.deviceDirty.trans h.deviceDirty,
      h'.version.trans h.version, h'.loading.trans h.loading, fun hdirty ↦
        h.hostDirty (h'.hostDirty hdirty), h'.content.trans h.content⟩
  plain hnone := by
    have hmiddle : middle.arrays.lookup buffer = none := by
      rw [Option.eq_none_iff_forall_ne_some]
      intro between hbetween
      obtain ⟨old, hold, -⟩ := hfirst.array between hbetween
      rw [hnone] at hold
      cases hold
    exact (hlast.plain hmiddle).trans (hfirst.plain hnone)

namespace Confined

theorem refl (engine : Engine) : Confined touched engine engine :=
  fun h ↦ ⟨h, Nat.le_refl _, fun buffer _ _ ↦ .refl engine buffer⟩

theorem trans (hfirst : Confined touched first middle) (hlast : Confined touched middle last) :
    Confined touched first last := by
  intro hfitting
  obtain ⟨hmiddle, hcount, hspared⟩ := hfirst hfitting
  obtain ⟨hafter, hcount', hspared'⟩ := hlast hmiddle
  refine ⟨hafter, Nat.le_trans hcount hcount', fun buffer hle htouched ↦ ?_⟩
  exact (hspared buffer hle htouched).trans (hspared' buffer (Nat.le_trans hle hcount) htouched)

end Confined

instance : Std.Refl (Confined touched) := ⟨Confined.refl⟩

instance : IsTrans Engine (Confined touched) := ⟨fun _ _ _ ↦ Confined.trans⟩

theorem Confined.of_fitting (h : first.Fitting → Confined touched first last) :
    Confined touched first last :=
  fun hfitting ↦ h hfitting hfitting

/-! ### Elementary changes -/

/-- A change of the device that leaves the buffers there alone. -/
theorem Confined.of_device
    (harrays : ∀ buffer, last.arrays.lookup buffer = first.arrays.lookup buffer)
    (hextends : first.device.Extends last.device)
    (hbytes : ∀ buffer, buffer ≤ first.device.buffers.size →
      last.device.bytesOf buffer = first.device.bytesOf buffer) :
    Confined touched first last := by
  intro hfitting
  refine ⟨fun buffer array hlookup ↦ ?_, hextends.count, fun buffer hle _ ↦ ⟨fun new hnew ↦ ?_,
    fun _ ↦ hbytes buffer hle⟩⟩
  · rw [harrays] at hlookup
    exact (hfitting buffer array hlookup).of_extends hextends
  · have hold := hnew
    rw [harrays] at hold
    refine ⟨new, hold, rfl, rfl, rfl, rfl, id, ?_⟩
    rw [content_of_lookup hnew, content_of_lookup hold, hbytes buffer hle]

theorem Confined.of_memory_eq (h : last.memory = first.memory) : Confined touched first last := by
  obtain ⟨harrays, hbuffers⟩ := memory_eq_iff.mp h
  exact .of_device harrays (.of_buffers_eq hbuffers) fun buffer _ ↦ bytesOf_eq_of_memory_eq h buffer

theorem Confined.of_push {bytes : Bytes}
    (harrays : ∀ buffer, last.arrays.lookup buffer = first.arrays.lookup buffer)
    (hbuffers : last.device.buffers = first.device.buffers.push bytes) :
    Confined touched first last := by
  refine .of_device harrays (.of_push hbuffers) fun buffer hle ↦ ?_
  rw [← @Device.bytesOf_push first.device buffer bytes hle, Device.bytesOf, Device.bytesOf,
    hbuffers]

/-- An action that minds one array and its buffer. -/
theorem Confined.of_array (buffer : Nat) (hextends : first.device.Extends last.device)
    (hlookup : ∀ other, other ≠ buffer → last.arrays.lookup other = first.arrays.lookup other)
    (hbytes : ∀ other, other ≠ buffer → other ≤ first.device.buffers.size →
      last.device.bytesOf other = first.device.bytesOf other)
    (hself : ∀ new, last.arrays.lookup buffer = some new → ∃ old,
      first.arrays.lookup buffer = some old ∧ (old.FitsOn first.device buffer →
        new.FitsOn last.device buffer ∧
          (¬ touched buffer → Untroubled first last buffer old new)))
    (hplain : ¬ touched buffer → first.arrays.lookup buffer = none →
      last.device.bytesOf buffer = first.device.bytesOf buffer) :
    Confined touched first last := by
  intro hfitting
  refine ⟨fun other array hfound ↦ ?_, hextends.count, fun other hle htouched ↦ ⟨fun new hnew ↦ ?_,
    fun hnone ↦ ?_⟩⟩
  · by_cases hother : other = buffer
    · subst hother
      obtain ⟨old, hold, h⟩ := hself array hfound
      exact (h (hfitting other old hold)).1
    · rw [hlookup other hother] at hfound
      exact (hfitting other array hfound).of_extends hextends
  · by_cases hother : other = buffer
    · subst hother
      obtain ⟨old, hold, h⟩ := hself new hnew
      exact ⟨old, hold, (h (hfitting other old hold)).2 htouched⟩
    · have hold := hnew
      rw [hlookup other hother] at hold
      refine ⟨new, hold, rfl, rfl, rfl, rfl, id, ?_⟩
      rw [content_of_lookup hnew, content_of_lookup hold, hbytes other hother hle]
  · by_cases hother : other = buffer
    · subst hother
      exact hplain htouched hnone
    · exact hbytes other hother hle

/-- Replacing an array by one whose copies fit too. -/
theorem confined_setArray {updated : ArrayState}
    (h : ∀ old, engine.arrays.lookup buffer = some old → old.FitsOn engine.device buffer →
      updated.FitsOn engine.device buffer ∧ (¬ touched buffer →
        Untroubled engine (engine.setArray buffer updated) buffer old updated)) :
    Confined touched engine (engine.setArray buffer updated) := by
  refine .of_array buffer (.of_buffers_eq rfl) (fun other hother ↦ lookup_setArray_of_ne _ hother)
    (fun _ _ _ ↦ rfl) (fun new hnew ↦ ?_) fun _ _ ↦ rfl
  rw [lookup_setArray] at hnew
  obtain ⟨old, hold, hupdated⟩ := Option.map_eq_some_iff.mp hnew
  rw [if_pos rfl] at hupdated
  subst hupdated
  exact ⟨old, hold, h old hold⟩

/-- Replacing an array by one that differs in nothing a load or a kernel minds. -/
theorem confined_setArray_of_eq {updated : ArrayState}
    (h : ∀ old, engine.arrays.lookup buffer = some old →
      updated.storage = old.storage ∧ updated.hostDirty = old.hostDirty ∧
        updated.deviceDirty = old.deviceDirty ∧ updated.version = old.version ∧
          updated.loading = old.loading) :
    Confined touched engine (engine.setArray buffer updated) := by
  refine confined_setArray fun old hold hfits ↦ ?_
  obtain ⟨hstorage, hhost, hdevice, hversion, hloading⟩ := h old hold
  refine ⟨⟨hfits.pos, hfits.le, by rw [hstorage, hfits.size],
    by rw [hhost, hdevice]; exact hfits.exclusive, by rw [hloading]; exact hfits.staging⟩,
    fun _ ↦ ⟨hstorage, hdevice, hversion, hloading, fun hdirty ↦ hhost ▸ hdirty, ?_⟩⟩
  rw [content_of_lookup (lookup_setArray_self updated hold), content_of_lookup hold, hhost,
    hstorage]
  rfl

/-- An array comes to be at a new buffer. -/
theorem confined_addArray (hnew : first.device.buffers.size < buffer)
    (harrays :
      ∀ other, last.arrays.lookup other = (first.addArray buffer array).arrays.lookup other)
    (hextends : first.device.Extends last.device)
    (hbytes : ∀ other, other ≤ first.device.buffers.size →
      last.device.bytesOf other = first.device.bytesOf other)
    (hfits : array.FitsOn last.device buffer) : Confined touched first last := by
  intro hfitting
  refine ⟨fun other found hlookup ↦ ?_, hextends.count, fun other hle _ ↦ ⟨fun found hlookup ↦ ?_,
    fun _ ↦ hbytes other hle⟩⟩
  · rw [harrays] at hlookup
    rcases lookup_of_lookup_append_singleton hlookup with hold | ⟨rfl, rfl⟩
    · exact (hfitting other found hold).of_extends hextends
    · exact hfits
  · have hfound := hlookup
    rw [harrays] at hfound
    rcases lookup_of_lookup_append_singleton hfound with hold | ⟨rfl, -⟩
    · refine ⟨found, hold, rfl, rfl, rfl, rfl, id, ?_⟩
      rw [content_of_lookup hlookup, content_of_lookup hold, hbytes other hle]
    · omega

end Engine

end ComputeArray
