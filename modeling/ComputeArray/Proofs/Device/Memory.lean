import ComputeArray.Proofs.Device.Objects
import ComputeArray.Proofs.Memory.Same

/-!
# Memory of a device

Buffers never change their size, and a submission changes no buffer but the targets of its copies
and those bound to a slot of a pass that is not only read (`sameOutside_submit`).
-/

set_option autoImplicit false

namespace ComputeArray

namespace Device

/-! ### Setting the bytes of a buffer -/

theorem bytesOf_setBytes_self {device : Device} {buffer : Nat} (bytes : Bytes) (hpos : 1 ≤ buffer)
    (hle : buffer ≤ device.buffers.size) :
    (device.setBytes buffer bytes).bytesOf buffer = bytes := by
  cases buffer with
  | zero => omega
  | succ i => simp [setBytes, bytesOf, numbered, show i < device.buffers.size by omega]

theorem bytesOf_setBytes_of_ne {device : Device} {buffer other : Nat} (bytes : Bytes)
    (h : other ≠ buffer) :
    (device.setBytes buffer bytes).bytesOf other = device.bytesOf other := by
  cases buffer with
  | zero => rfl
  | succ i =>
    cases other with
    | zero => rfl
    | succ j =>
      have hij : i ≠ j := fun hij ↦ h (by rw [hij])
      simp [setBytes, bytesOf, numbered, hij]

theorem size_buffers_setBytes (device : Device) (buffer : Nat) (bytes : Bytes) :
    (device.setBytes buffer bytes).buffers.size = device.buffers.size := by
  cases buffer with
  | zero => rfl
  | succ i => simp [setBytes]

/-- A buffer beyond the last one has no bytes to set. -/
theorem bytesOf_setBytes_of_lt {device : Device} {buffer : Nat} (bytes : Bytes)
    (h : device.buffers.size < buffer) (other : Nat) :
    (device.setBytes buffer bytes).bytesOf other = device.bytesOf other := by
  cases buffer with
  | zero => rfl
  | succ i =>
    have hi : device.buffers.size ≤ i := by omega
    simp [setBytes, bytesOf, Array.setIfInBounds, Nat.not_lt.mpr hi]

theorem bytesOf_record (call : Call) (device : Device) (buffer : Nat) :
    (device.record call).bytesOf buffer = device.bytesOf buffer :=
  rfl

theorem bytesOf_push {device : Device} {buffer : Nat} (bytes : Bytes)
    (h : buffer ≤ device.buffers.size) :
    { device with buffers := device.buffers.push bytes }.bytesOf buffer =
      device.bytesOf buffer := by
  cases buffer with
  | zero => rfl
  | succ i =>
    simp [bytesOf, numbered, Array.getElem?_push, show i ≠ device.buffers.size by omega]

theorem bytesOf_push_new (device : Device) (bytes : Bytes) :
    { device with buffers := device.buffers.push bytes }.bytesOf (device.buffers.size + 1) =
      bytes := by
  simp [bytesOf, numbered_push_new]

/-! ### Changes outside of some buffers -/

/-- The devices have the same buffers of the same sizes, with the same bytes in all but some. -/
structure SameOutside (written : Nat → Prop) (before after : Device) : Prop where
  count : after.buffers.size = before.buffers.size
  size : ∀ buffer, after.sizeOf buffer = before.sizeOf buffer
  bytes : ∀ buffer, ¬ written buffer → after.bytesOf buffer = before.bytesOf buffer

namespace SameOutside

variable {written wider : Nat → Prop} {first middle last : Device}

theorem refl (device : Device) : SameOutside written device device :=
  ⟨rfl, fun _ ↦ rfl, fun _ _ ↦ rfl⟩

theorem trans (hfirst : SameOutside written first middle)
    (hlast : SameOutside written middle last) : SameOutside written first last where
  count := hlast.count.trans hfirst.count
  size buffer := (hlast.size buffer).trans (hfirst.size buffer)
  bytes buffer h := (hlast.bytes buffer h).trans (hfirst.bytes buffer h)

theorem mono (h : SameOutside written first last)
    (hwider : ∀ buffer, written buffer → wider buffer) : SameOutside wider first last :=
  ⟨h.count, h.size, fun buffer hbuffer ↦ h.bytes buffer fun hin ↦ hbuffer (hwider buffer hin)⟩

end SameOutside

/-- A buffer is given other bytes of the same size. -/
theorem sameOutside_setBytes {device : Device} {buffer : Nat} {bytes : Bytes}
    (h : bytes.size = device.sizeOf buffer) :
    SameOutside (· = buffer) device (device.setBytes buffer bytes) := by
  refine ⟨size_buffers_setBytes _ _ _, fun other ↦ ?_, fun other h ↦ bytesOf_setBytes_of_ne _ h⟩
  unfold sizeOf at h ⊢
  by_cases hother : other = buffer
  · subst hother
    rcases Nat.eq_zero_or_pos other with rfl | hpos
    · rfl
    · by_cases hle : other ≤ device.buffers.size
      · rw [bytesOf_setBytes_self _ hpos hle, h]
      · rw [bytesOf_setBytes_of_lt _ (by omega)]
  · rw [bytesOf_setBytes_of_ne _ hother]

theorem sameOutside_overwrite (device : Device) (buffer : Nat) (patch : Bytes) :
    SameOutside (· = buffer) device
      (device.setBytes buffer ((device.bytesOf buffer).overwrite 0 patch)) :=
  sameOutside_setBytes (Bytes.size_overwrite _ _ _)

theorem sameOutside_write (device : Device) (buffer : Nat) (bytes : Bytes) :
    SameOutside (· = buffer) device (device.write buffer bytes) := by
  have h := sameOutside_overwrite device buffer bytes
  exact ⟨h.count, h.size, h.bytes⟩

/-- Whether results are stored in the buffer of a slot. -/
def Stored (slots : List (Mode × Nat × Bytes)) (buffer : Nat) : Prop :=
  ∃ slot ∈ slots, slot.1 ≠ .read ∧ buffer = slot.2.1

theorem sameOutside_storeResult (device : Device) (slot : Mode × Nat × Bytes) :
    SameOutside (Stored [slot]) device (device.storeResult slot) := by
  obtain ⟨mode, buffer, result⟩ := slot
  by_cases hmode : mode = .read
  · rw [storeResult, if_pos hmode]
    exact .refl device
  · rw [storeResult, if_neg hmode]
    refine (sameOutside_overwrite device buffer result).mono fun other hother ↦ ?_
    exact ⟨_, List.mem_singleton.mpr rfl, hmode, hother⟩

theorem sameOutside_foldl_storeResult (slots : List (Mode × Nat × Bytes)) (device : Device) :
    SameOutside (Stored slots) device (slots.foldl storeResult device) := by
  induction slots generalizing device with
  | nil => exact .refl device
  | cons slot rest ih =>
    have hfirst := (sameOutside_storeResult device slot).mono fun buffer
      (⟨found, hmem, h⟩ : Stored [slot] buffer) ↦
        (⟨found, by rw [List.mem_singleton.mp hmem]; simp, h⟩ : Stored (slot :: rest) buffer)
    have hrest := (ih (device.storeResult slot)).mono fun buffer
      (⟨found, hmem, h⟩ : Stored rest buffer) ↦
        (⟨found, List.mem_cons_of_mem slot hmem, h⟩ : Stored (slot :: rest) buffer)
    exact hfirst.trans hrest

/-- If all slots are written, each with a result of its size, and no two
of them are the same buffer, then all results are there in the end. -/
theorem map_bytesOf_foldl_storeResult {modes : List Mode} {buffers : List Nat}
    {results : List Bytes} {device : Device} (hmodes : modes.length = buffers.length)
    (hwrites : ∀ mode ∈ modes, mode ≠ .read) (hnodup : buffers.Nodup)
    (hrange : ∀ buffer ∈ buffers, 1 ≤ buffer ∧ buffer ≤ device.buffers.size)
    (hsizes : results.map Bytes.size = buffers.map device.sizeOf) :
    buffers.map ((modes.zip (buffers.zip results)).foldl storeResult device).bytesOf = results := by
  induction buffers generalizing modes results device with
  | nil => exact (List.map_eq_nil_iff.mp hsizes).symm
  | cons buffer buffers ih =>
    obtain ⟨result, results, rfl, hsize, hsizes⟩ := List.map_eq_cons_iff.mp hsizes
    obtain ⟨mode, modes, rfl⟩ := List.exists_cons_of_length_eq_add_one hmodes
    rw [List.nodup_cons] at hnodup
    obtain ⟨hfirst, hrange⟩ := List.forall_mem_cons.mp hrange
    have hsame := sameOutside_storeResult device (mode, buffer, result)
    have hstored : device.storeResult (mode, buffer, result) = device.setBytes buffer result := by
      rw [storeResult, if_neg (hwrites mode List.mem_cons_self), Bytes.overwrite_of_size_eq hsize]
    have hkept : ¬ Stored (modes.zip (buffers.zip results)) buffer := by
      rintro ⟨slot, hmem, -, rfl⟩
      exact hnodup.1 (List.of_mem_zip (List.of_mem_zip hmem).2).1
    rw [List.zip_cons_cons, List.zip_cons_cons, List.foldl_cons, List.map_cons]
    refine List.cons_eq_cons.mpr ⟨?_, ih (Nat.succ.inj hmodes)
      (fun mode hmem ↦ hwrites mode (List.mem_cons_of_mem _ hmem)) hnodup.2
      (fun buffer hmem ↦ hsame.count ▸ hrange buffer hmem)
      (hsizes.trans (List.map_congr_left fun buffer _ ↦ (hsame.size buffer).symm))⟩
    rw [(sameOutside_foldl_storeResult _ _).bytes buffer hkept, hstored,
      bytesOf_setBytes_self _ hfirst.1 hfirst.2]

/-- A pass over different buffers that writes all of them leaves there what it computes. -/
theorem map_bytesOf_runPass {device : Device} {command : Command} {layout : Nat}
    {buffers : List Nat} {results : List Bytes}
    (hmodes : (device.modesOf layout).length = buffers.length)
    (hwrites : ∀ mode ∈ device.modesOf layout, mode ≠ .read) (hnodup : buffers.Nodup)
    (hrange : ∀ buffer ∈ buffers, 1 ≤ buffer ∧ buffer ≤ device.buffers.size)
    (hsizes : results.map Bytes.size = buffers.map device.sizeOf)
    (hresults : device.computing device.passCount command (buffers.map device.bytesOf) = results) :
    buffers.map (device.runPass command layout buffers).bytesOf = results := by
  rw [runPass, hresults]
  exact map_bytesOf_foldl_storeResult hmodes hwrites hnodup hrange hsizes

/-! ### Submissions -/

theorem modesOf_congr {before after : Device} (h : after.objects = before.objects) (layout : Nat) :
    after.modesOf layout = before.modesOf layout := by
  simp only [objects, Prod.mk.injEq] at h
  rw [modesOf, modesOf, h.1]

end Device

/-- Whether a command may write a buffer, on a device with the layouts of the given one. -/
def Command.Writes (device : Device) : Command → Nat → Prop
  | .dispatch _ layout buffers _, buffer =>
    ∃ mode, (mode, buffer) ∈ (device.modesOf layout).zip (buffers.map Prod.fst) ∧ mode ≠ .read
  | .copy _ target _, buffer => buffer = target

/-- A slot that is zipped together from three lists is zipped together from the first two. -/
theorem mem_zip_of_mem_zip_zip {α β γ : Type} {a : α} {b : β} {c : γ} {as : List α} {bs : List β}
    {cs : List γ} (h : (a, b, c) ∈ as.zip (bs.zip cs)) : (a, b) ∈ as.zip bs := by
  induction as generalizing bs cs with
  | nil => simp at h
  | cons first as ih =>
    cases bs with
    | nil => simp at h
    | cons second bs =>
      cases cs with
      | nil => simp at h
      | cons third cs =>
        simp only [List.zip_cons_cons, List.mem_cons, Prod.mk.injEq] at h ⊢
        rcases h with ⟨rfl, rfl, -⟩ | h
        · exact .inl ⟨rfl, rfl⟩
        · exact .inr (ih h)

namespace Device

theorem sameOutside_perform (device : Device) (command : Command) :
    SameOutside (command.Writes device) device (device.perform command) := by
  cases command with
  | copy source target size => exact sameOutside_overwrite device target _
  | dispatch pipeline layout buffers groups =>
    have hstored := sameOutside_foldl_storeResult
      ((device.modesOf layout).zip ((buffers.map Prod.fst).zip
        (device.computing device.passCount (.dispatch pipeline layout buffers groups)
          ((buffers.map Prod.fst).map device.bytesOf))))
      { device with passCount := device.passCount + 1 }
    have hwrites : SameOutside (Command.Writes device (.dispatch pipeline layout buffers groups))
        { device with passCount := device.passCount + 1 }
        (device.perform (.dispatch pipeline layout buffers groups)) := by
      refine hstored.mono fun buffer hbuffer ↦ ?_
      obtain ⟨⟨mode, slot, result⟩, hmem, hmode, rfl⟩ := hbuffer
      exact ⟨mode, mem_zip_of_mem_zip_zip hmem, hmode⟩
    exact ⟨hwrites.count, hwrites.size, hwrites.bytes⟩

theorem sameOutside_foldl_perform (commands : List Command) (device : Device) :
    SameOutside (fun buffer ↦ ∃ command ∈ commands, command.Writes device buffer) device
      (commands.foldl perform device) := by
  induction commands generalizing device with
  | nil => exact .refl device
  | cons command rest ih =>
    have hlayouts : ∀ layout, (device.perform command).modesOf layout = device.modesOf layout :=
      modesOf_congr (objects_perform device command)
    have hfirst : SameOutside (fun buffer ↦ ∃ found ∈ command :: rest, found.Writes device buffer)
        device (device.perform command) :=
      (sameOutside_perform device command).mono fun buffer h ↦ ⟨command, by simp, h⟩
    have hrest : SameOutside (fun buffer ↦ ∃ found ∈ command :: rest, found.Writes device buffer)
        (device.perform command) (rest.foldl perform (device.perform command)) := by
      refine (ih (device.perform command)).mono fun buffer hbuffer ↦ ?_
      obtain ⟨found, hmem, hwrites⟩ := hbuffer
      refine ⟨found, List.mem_cons_of_mem command hmem, ?_⟩
      cases found with
      | copy source target size => exact hwrites
      | dispatch pipeline layout buffers groups =>
        simp only [Command.Writes, hlayouts] at hwrites
        exact hwrites
    exact hfirst.trans hrest

/-- A submission changes no buffer but those its commands write. -/
theorem sameOutside_submit (commands : List Command) (device : Device) :
    SameOutside (fun buffer ↦ ∃ command ∈ commands, command.Writes device buffer) device
      (device.submit commands) := by
  have h := sameOutside_foldl_perform commands device
  exact ⟨h.count, h.size, h.bytes⟩

end Device

end ComputeArray
