import ComputeArray.Device.Basic
import Mathlib.Order.Defs.Unbundled

/-!
# Objects of a device

The number of an object stands for it as long as the device lives: new objects get numbers of their
own, and `Device.Grows` says that no layout, module or pipeline is ever lost or replaced.
-/

set_option autoImplicit false

namespace ComputeArray

section Numbered

variable {α : Type} {objects : Array α} {a : α}

theorem le_size_of_numbered {n : Nat} (h : numbered objects n = some a) :
    1 ≤ n ∧ n ≤ objects.size := by
  cases n with
  | zero => cases h
  | succ i =>
    have hlt : i < objects.size := (Array.getElem?_eq_some_iff.mp h).1
    omega

theorem numbered_push_of_numbered {n : Nat} (b : α) (h : numbered objects n = some a) :
    numbered (objects.push b) n = some a := by
  have hn := le_size_of_numbered h
  cases n with
  | zero => cases h
  | succ i =>
    change (objects.push b)[i]? = some a
    rw [Array.getElem?_push, if_neg (by omega)]
    exact h

theorem numbered_push_new (b : α) : numbered (objects.push b) (objects.size + 1) = some b :=
  Array.getElem?_push_size

/-- Every object keeps its number. -/
def Kept (before after : Array α) : Prop :=
  ∀ n a, numbered before n = some a → numbered after n = some a

theorem Kept.refl (objects : Array α) : Kept objects objects := fun _ _ h ↦ h

theorem Kept.trans {first middle last : Array α} (hfirst : Kept first middle)
    (hlast : Kept middle last) : Kept first last :=
  fun n a h ↦ hlast n a (hfirst n a h)

theorem Kept.push (objects : Array α) (b : α) : Kept objects (objects.push b) :=
  fun _ _ h ↦ numbered_push_of_numbered b h

end Numbered

/-! ### Entries of layouts -/

theorem LayoutEntry.ofMode_eq_iff (binding : Nat) (a b : Mode) :
    ofMode binding a = ofMode binding b ↔ a.letter = b.letter := by
  cases a <;> cases b <;> simp [ofMode, Mode.letter]

@[simp] theorem LayoutEntry.letter_access_ofMode (binding : Nat) (mode : Mode) :
    (ofMode binding mode).access.letter = mode.letter := by
  cases mode <;> rfl

/-- Lists of modes have one signature exactly if they have the same entries. -/
theorem signatureOf_eq_iff (modes others : List Mode) :
    signatureOf modes = signatureOf others ↔ entriesOf modes = entriesOf others := by
  unfold signatureOf entriesOf
  rw [String.ofList_inj, List.ext_getElem?_iff, List.ext_getElem?_iff]
  refine forall_congr' fun i ↦ ?_
  rw [List.getElem?_map, List.getElem?_map, List.getElem?_mapIdx, List.getElem?_mapIdx]
  cases modes[i]? <;> cases others[i]? <;> simp [LayoutEntry.ofMode_eq_iff]

/-- The signature of a layout with the given entries. -/
def signatureOfEntries (entries : List LayoutEntry) : String :=
  signatureOf (entries.map LayoutEntry.access)

/-- The access granted to the bindings has the letters of their modes. -/
theorem letters_entriesOf (modes : List Mode) :
    ((entriesOf modes).map LayoutEntry.access).map Mode.letter = modes.map Mode.letter := by
  refine List.ext_getElem? fun i ↦ ?_
  simp only [entriesOf, List.getElem?_map, List.getElem?_mapIdx, Option.map_map]
  cases modes[i]? <;> simp

@[simp] theorem signatureOfEntries_entriesOf (modes : List Mode) :
    signatureOfEntries (entriesOf modes) = signatureOf modes :=
  congrArg String.ofList (letters_entriesOf modes)

namespace Device

/-- The later device still has all layouts, modules and pipelines of the earlier one. -/
structure Grows (before after : Device) : Prop where
  layouts : Kept before.layouts after.layouts
  modules : Kept before.modules after.modules
  pipelines : Kept before.pipelines after.pipelines

namespace Grows

theorem refl (device : Device) : Grows device device := ⟨.refl _, .refl _, .refl _⟩

theorem trans {first middle last : Device} (hfirst : Grows first middle)
    (hlast : Grows middle last) : Grows first last :=
  ⟨hfirst.layouts.trans hlast.layouts, hfirst.modules.trans hlast.modules,
    hfirst.pipelines.trans hlast.pipelines⟩

end Grows

/-- The layouts, modules and pipelines of a device. -/
def objects (device : Device) := (device.layouts, device.modules, device.pipelines)

theorem Grows.of_objects {before after : Device} (h : after.objects = before.objects) :
    before.Grows after := by
  simp only [objects, Prod.mk.injEq] at h
  obtain ⟨hlayouts, hmodules, hpipelines⟩ := h
  exact ⟨hlayouts ▸ .refl _, hmodules ▸ .refl _, hpipelines ▸ .refl _⟩

@[simp] theorem objects_setBytes (buffer : Nat) (bytes : Bytes) (device : Device) :
    (device.setBytes buffer bytes).objects = device.objects := by
  cases buffer with
  | zero => rfl
  | succ i => rfl

@[simp] theorem objects_record (call : Call) (device : Device) :
    (device.record call).objects = device.objects :=
  rfl

theorem objects_foldl {α : Type} {act : Device → α → Device}
    (h : ∀ device item, (act device item).objects = device.objects) (items : List α)
    (device : Device) : (items.foldl act device).objects = device.objects := by
  induction items generalizing device with
  | nil => rfl
  | cons item rest ih => rw [List.foldl_cons, ih, h]

/-- All of a device but the bytes of its buffers and the number of passes run. -/
def apparatus (device : Device) :=
  (device.features, device.limits, device.destroyFailure, device.compiler, device.computing,
    device.modules, device.layouts, device.pipelines, device.encoders, device.calls)

theorem apparatus_setBytes (buffer : Nat) (bytes : Bytes) (device : Device) :
    (device.setBytes buffer bytes).apparatus = device.apparatus := by
  cases buffer <;> rfl

theorem calls_setBytes (buffer : Nat) (bytes : Bytes) (device : Device) :
    (device.setBytes buffer bytes).calls = device.calls :=
  congrArg (·.2.2.2.2.2.2.2.2.2) (apparatus_setBytes buffer bytes device)

theorem apparatus_perform (device : Device) (command : Command) :
    (device.perform command).apparatus = device.apparatus := by
  cases command with
  | copy source target size => exact apparatus_setBytes _ _ _
  | dispatch pipeline layout buffers groups =>
    have hstored (slots : List (Mode × Nat × Bytes)) (start : Device) :
        (slots.foldl storeResult start).apparatus = start.apparatus := by
      induction slots generalizing start with
      | nil => rfl
      | cons slot rest ih =>
        rw [List.foldl_cons, ih, storeResult]
        split
        · rfl
        · exact apparatus_setBytes _ _ _
    exact hstored _ _

theorem apparatus_foldl_perform (commands : List Command) (device : Device) :
    (commands.foldl perform device).apparatus = device.apparatus := by
  induction commands generalizing device with
  | nil => rfl
  | cons command rest ih => rw [List.foldl_cons, ih, apparatus_perform]

theorem objects_of_apparatus {before after : Device} (h : after.apparatus = before.apparatus) :
    after.objects = before.objects := by
  simp only [apparatus, Prod.mk.injEq] at h
  simp only [objects, h]

theorem objects_perform (device : Device) (command : Command) :
    (device.perform command).objects = device.objects :=
  objects_of_apparatus (apparatus_perform device command)

theorem calls_submit (commands : List Command) (device : Device) :
    (device.submit commands).calls = device.calls.push (.submit commands) :=
  congrArg (Array.push · (Call.submit commands))
    (congrArg (·.2.2.2.2.2.2.2.2.2) (apparatus_foldl_perform commands device))

@[simp] theorem objects_submit (commands : List Command) (device : Device) :
    (device.submit commands).objects = device.objects := by
  rw [submit, objects_record, objects_of_apparatus (apparatus_foldl_perform commands device)]

@[simp] theorem objects_write (buffer : Nat) (bytes : Bytes) (device : Device) :
    (device.write buffer bytes).objects = device.objects := by
  rw [write, objects_record, objects_setBytes]

/-- A compilation gives a module if the compiler answers with messages. The module has the next
number and the source it was compiled from. -/
theorem compile_eq_ok {device : Device} {source : String} {module : Nat}
    {messages : List (String × String)} (h : (device.compile source).1 = .ok (module, messages)) :
    device.compiler.answer source = .ok messages ∧ module = device.modules.size + 1 ∧
      (device.compile source).2 =
        { device with modules := device.modules.push source }.record
          (.compile module source) := by
  unfold compile at h ⊢
  cases hanswer : device.compiler.answer source with
  | error message => simp [hanswer] at h
  | ok answer =>
    simp only [hanswer, Except.ok.injEq, Prod.mk.injEq] at h ⊢
    exact ⟨h.2, h.1.symm, by rw [h.1]⟩

/-- A refused source leaves a note of the refusal only. -/
theorem compile_eq_error {device : Device} {source message : String}
    (h : (device.compile source).1 = .error message) :
    device.compiler.answer source = .error message ∧
      (device.compile source).2 = device.record (.rejectSource source) := by
  unfold compile at h ⊢
  cases hanswer : device.compiler.answer source with
  | error refusal =>
    simp only [hanswer, Except.error.injEq] at h
    exact ⟨congrArg Except.error h, rfl⟩
  | ok answer => simp [hanswer] at h

end Device

end ComputeArray
