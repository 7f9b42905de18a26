import ComputeArray.Engine.Launch
import ComputeArray.Proofs.Device.Memory
import ComputeArray.Proofs.Kernel.Bindings
import ComputeArray.Proofs.Layout.Broadcast
import ComputeArray.Proofs.Memory.Words
import ComputeArray.Proofs.Run.Elementary

/-!
# Stride buffers

The buffers made for a strided pass hold, operand by operand, the strides the arrays are read with,
and last those of the output (`holds_of_stridesBuffers`). Strides that no word holds are refused.
-/

set_option autoImplicit false

namespace ComputeArray

namespace Device

/-- The later device still has the buffers of the earlier one, with the same bytes. -/
structure Keeps (before after : Device) : Prop where
  count : before.buffers.size ≤ after.buffers.size
  bytes : ∀ buffer, buffer ≤ before.buffers.size → after.bytesOf buffer = before.bytesOf buffer

theorem Keeps.refl (device : Device) : Keeps device device := ⟨Nat.le_refl _, fun _ _ ↦ rfl⟩

theorem Keeps.trans {first middle last : Device} (hfirst : Keeps first middle)
    (hlast : Keeps middle last) : Keeps first last := by
  refine ⟨Nat.le_trans hfirst.count hlast.count, fun buffer hle ↦ ?_⟩
  rw [hlast.bytes buffer (Nat.le_trans hle hfirst.count), hfirst.bytes buffer hle]

/-- A buffer made of words. -/
structure Holds (device : Device) (buffer : Nat) (words : List Nat) : Prop where
  created : buffer ≤ device.buffers.size
  bytes : device.bytesOf buffer = .ofWords words
  words : ∀ word ∈ words, word < 2 ^ 32

/-- A buffer filled with the words of strides. -/
structure Filled (device : Device) (buffer : Nat) (strides : List Int) : Prop where
  created : buffer ≤ device.buffers.size
  words : ∃ words, strides.mapM ElementType.u32.storeInt = .ok words ∧
    device.bytesOf buffer = .ofWords words

theorem Filled.kept {before after : Device} {buffer : Nat} {strides : List Int}
    (h : before.Filled buffer strides) (hkeeps : Keeps before after) :
    after.Filled buffer strides := by
  obtain ⟨words, hwords, hbytes⟩ := h.words
  exact ⟨Nat.le_trans h.created hkeeps.count, words, hwords,
    (hkeeps.bytes buffer h.created).trans hbytes⟩

end Device

namespace Action

open Device

variable {engine : Engine}

/-! ### Words of strides -/

theorem storeInt_eq_ok {n word : Nat} (h : ElementType.u32.storeInt (n : Int) = .ok word) :
    word = n ∧ n < 2 ^ 32 := by
  unfold ElementType.storeInt at h
  split at h
  · next hholds =>
    have hlt : n < 2 ^ 32 := by
      simp only [ElementType.holds, Word.holdsUnsigned, Bool.and_eq_true, decide_eq_true_eq]
        at hholds
      have hupper : n < twoTo 32 := Int.ofNat_lt.mp hholds.2
      exact hupper
    have hpattern : ElementType.wordBits (n : Int) = n := by
      have hmod : (n : Int) % (twoTo 32 : Nat) = (n : Int) :=
        Int.emod_eq_of_lt (Int.natCast_nonneg n) (Int.ofNat_lt.mpr hlt)
      rw [ElementType.wordBits, Word.pattern, hmod, Int.toNat_natCast]
    rw [hpattern] at h
    cases h
    exact ⟨rfl, hlt⟩
  · split at h
    · cases h
    · cases h

theorem words_of_strides {strides words : List Nat}
    (h : (strides.map Int.ofNat).mapM ElementType.u32.storeInt = .ok words) :
    words = strides ∧ ∀ stride ∈ strides, stride < 2 ^ 32 := by
  have hwords := Kernel.forall₂_of_mapM_ok h
  rw [List.forall₂_map_left_iff] at hwords
  clear h
  induction hwords with
  | nil => exact ⟨rfl, by simp⟩
  | @cons stride word strides words hfirst _ ih =>
    obtain ⟨rfl, hlt⟩ := storeInt_eq_ok hfirst
    obtain ⟨rfl, hrest⟩ := ih
    refine ⟨rfl, fun other hmem ↦ ?_⟩
    rcases List.mem_cons.mp hmem with rfl | hmem
    · exact hlt
    · exact hrest other hmem

/-! ### One buffer -/

theorem filled_of_stridesBuffer {strides : List Int} {buffer : Nat}
    (h : outcomeOf (stridesBuffer strides) engine = .ok buffer) :
    (stateAfter (stridesBuffer strides) engine).device.Filled buffer strides ∧
      Keeps engine.device (stateAfter (stridesBuffer strides) engine).device := by
  unfold stridesBuffer at h ⊢
  simp only [outcomeOf_bind_eq_ok, outcomeOf_actionOfExcept, stateAfter_actionOfExcept,
    stateAfter_assertActive] at h
  obtain ⟨words, hwords, _, hactive, hbuffer⟩ := h
  cases hbuffer
  rw [stateAfter_bind_of_ok ((outcomeOf_actionOfExcept _ _).trans hwords),
    stateAfter_actionOfExcept, stateAfter_bind_of_ok hactive, stateAfter_assertActive]
  have hsize :
      engine.device.buffers.size + 1 ≤ (engine.device.buffers.push (.ofWords words)).size :=
    Nat.le_of_eq (Array.size_push _).symm
  exact ⟨⟨hsize, words, hwords, bytesOf_push_new _ _⟩,
    Nat.le_trans (Nat.le_succ _) hsize, fun other hle ↦ bytesOf_push _ hle⟩

theorem holds_of_filled {device : Device} {buffer : Nat} {strides : List Nat}
    (h : device.Filled buffer (strides.map Int.ofNat)) : device.Holds buffer strides := by
  obtain ⟨words, hwords, hbytes⟩ := h.words
  obtain ⟨rfl, hlt⟩ := words_of_strides hwords
  exact ⟨h.created, hbytes, hlt⟩

/-! ### All buffers -/

/-- The arrays among named operands. -/
def namedArrays (items : List (String × Value)) : List (String × Nat) :=
  items.filterMap fun
    | (name, .array buffer _) => some (name, buffer)
    | _ => none

/-- The helper buffer of an array: it has the array's name, and is filled with the strides the array
is read with over a shape. -/
def FilledFor (arrays : Nat → ArrayState) (shape : List Int) (device : Device)
    (named helper : String × Nat) : Prop :=
  helper.1 = named.1 ∧ ∃ strides,
    Layout.broadcast (arrays named.2).shapeInts (arrays named.2).strideInts shape = .ok strides ∧
      device.Filled helper.2 strides

theorem FilledFor.kept {arrays : Nat → ArrayState} {shape : List Int} {before after : Device}
    {named helper : String × Nat} (h : FilledFor arrays shape before named helper)
    (hkeeps : Keeps before after) : FilledFor arrays shape after named helper := by
  obtain ⟨hname, strides, hstrides, hfilled⟩ := h
  exact ⟨hname, strides, hstrides, hfilled.kept hkeeps⟩

/-- A helper buffer for each array among the operands, and one for the output, which comes last. -/
def AllFilled (arrays : Nat → ArrayState) (shape : List Int) (device : Device)
    (items : List (String × Value)) (helpers : List (String × Nat)) : Prop :=
  ∃ inputs out, helpers = inputs ++ [("out", out)] ∧
    List.Forall₂ (FilledFor arrays shape device) (namedArrays items) inputs ∧
    device.Filled out (Layout.contiguous shape)

/-- The strides bound for an operand: those its array is read with, none for a scalar. -/
def strideTable? (engine : Engine) (shape : List Nat) :
    String × Value → Option (String × List Nat)
  | (name, .array buffer _) =>
    some (name, Layout.boundStrides (engine.array buffer).shape (engine.array buffer).strides shape)
  | _ => none

/-- The strides bound for a pass, those of the output last. -/
def strideTables (engine : Engine) (shape : List Nat) (operands : List (String × Value)) :
    List (String × List Nat) :=
  operands.filterMap (strideTable? engine shape) ++ [("out", Shape.steps shape)]

/-- Helper buffers that hold tables of strides, under the same names. -/
def AllHold (device : Device) (helpers : List (String × Nat)) (tables : List (String × List Nat)) :
    Prop :=
  List.Forall₂
    (fun helper table ↦ helper.1 = table.1 ∧ device.Holds helper.2 table.2) helpers tables

/-- An operand that is read at the sources of indices of the shape. -/
def Readable (engine : Engine) (shape : List Nat) (value : Value) : Prop :=
  ∀ buffer described, value = .array buffer described →
    Shape.Stretches (engine.array buffer).shape shape ∧
      (engine.array buffer).strides.length = (engine.array buffer).shape.length

theorem filled_of_operandStrides {shape : List Int} {start : Engine} {name : String} {buffer : Nat}
    {described : String} {found : Option (String × Nat)}
    (h : outcomeOf (operandStrides engine shape (name, .array buffer described)) start =
      .ok found) :
    ∃ helper, found = some helper ∧
      FilledFor engine.array shape (stateAfter (operandStrides engine shape
        (name, .array buffer described)) start).device (name, buffer) helper ∧
      Keeps start.device (stateAfter (operandStrides engine shape
        (name, .array buffer described)) start).device := by
  unfold operandStrides at h ⊢
  dsimp only at h ⊢
  simp only [outcomeOf_bind_eq_ok, outcomeOf_actionOfExcept, stateAfter_actionOfExcept] at h
  obtain ⟨strides, hstrides, helper, hhelper, hfound⟩ := h
  cases hfound
  rw [stateAfter_bind_of_ok ((outcomeOf_actionOfExcept _ _).trans hstrides),
    stateAfter_actionOfExcept, stateAfter_bind_of_ok hhelper, stateAfter_pure]
  obtain ⟨hfilled, hkeeps⟩ := filled_of_stridesBuffer hhelper
  exact ⟨_, rfl, ⟨rfl, strides, hstrides, hfilled⟩, hkeeps⟩

/-- The buffers made for operands, one after the other, are filled with their strides. -/
theorem filled_of_filterMapM {shape : List Int} {items : List (String × Value)} {start : Engine}
    {helpers : List (String × Nat)}
    (h : outcomeOf (items.filterMapM (operandStrides engine shape)) start = .ok helpers) :
    List.Forall₂ (FilledFor engine.array shape
        (stateAfter (items.filterMapM (operandStrides engine shape)) start).device)
        (namedArrays items) helpers ∧
      Keeps start.device
        (stateAfter (items.filterMapM (operandStrides engine shape)) start).device := by
  induction items generalizing start helpers with
  | nil =>
    cases h
    exact ⟨.nil, .refl _⟩
  | cons item rest ih =>
    rw [List.filterMapM_cons] at h ⊢
    rw [outcomeOf_bind_eq_ok] at h
    obtain ⟨found, hfound, h⟩ := h
    rw [stateAfter_bind_of_ok hfound]
    obtain ⟨name, value⟩ := item
    by_cases harray : ∃ buffer described, value = .array buffer described
    · obtain ⟨buffer, described, rfl⟩ := harray
      obtain ⟨helper, rfl, hfilled, hkeeps⟩ := filled_of_operandStrides hfound
      rw [outcomeOf_bind_eq_ok] at h
      obtain ⟨later, hlater, h⟩ := h
      cases h
      obtain ⟨hfilled', hkeeps'⟩ := ih hlater
      dsimp only
      rw [stateAfter_bind_of_ok hlater]
      exact ⟨.cons (hfilled.kept hkeeps') hfilled', hkeeps.trans hkeeps'⟩
    · have hscalar : operandStrides engine shape (name, value) = pure none ∧
          namedArrays ((name, value) :: rest) = namedArrays rest := by
        cases value with
        | array buffer described => exact absurd ⟨buffer, described, rfl⟩ harray
        | _ => exact ⟨rfl, rfl⟩
      rw [hscalar.1] at h hfound ⊢
      cases hfound
      rw [hscalar.2]
      exact ih h

/-- The buffers made for a pass are filled with the strides of its operands and of its output. -/
theorem filled_of_stridesBuffers {names : List String} {operands : List Value} {shape : List Int}
    {helpers : List (String × Nat)}
    (h : outcomeOf (stridesBuffers names operands shape) engine = .ok helpers) :
    AllFilled engine.array shape (stateAfter (stridesBuffers names operands shape) engine).device
      (names.zip operands) helpers := by
  unfold stridesBuffers at h ⊢
  simp only [outcomeOf_bind_eq_ok, outcomeOf_get, stateAfter_get, Except.ok.injEq,
    exists_eq_left'] at h
  obtain ⟨inputs, hinputs, out, hout, h⟩ := h
  cases h
  rw [stateAfter_bind_of_ok (outcomeOf_get engine), stateAfter_get,
    stateAfter_bind_of_ok hinputs, stateAfter_bind_of_ok hout, stateAfter_pure]
  obtain ⟨hfilled, -⟩ := filled_of_filterMapM hinputs
  obtain ⟨hlast, hkeeps⟩ := filled_of_stridesBuffer hout
  exact ⟨inputs, out, rfl, hfilled.imp fun _ _ h ↦ h.kept hkeeps, hlast⟩

theorem filterMap_strideTable? (shape : List Nat) (items : List (String × Value)) :
    items.filterMap (strideTable? engine shape) = (namedArrays items).map fun array ↦
      (array.1, Layout.boundStrides (engine.array array.2).shape (engine.array array.2).strides
        shape) := by
  rw [namedArrays, List.map_filterMap]
  refine List.filterMap_congr fun item _ ↦ ?_
  obtain ⟨name, value⟩ := item
  cases value <;> rfl

theorem exists_of_mem_namedArrays {items : List (String × Value)} {array : String × Nat}
    (h : array ∈ namedArrays items) :
    ∃ described, (array.1, Value.array array.2 described) ∈ items := by
  obtain ⟨⟨name, value⟩, hmem, heq⟩ := List.mem_filterMap.mp h
  cases value with
  | array buffer described =>
    cases heq
    exact ⟨described, hmem⟩
  | _ => cases heq

/-- The buffers made for a pass hold the strides its operands and its output are read with. -/
theorem holds_of_stridesBuffers {names : List String} {operands : List Value} {shape : List Nat}
    {helpers : List (String × Nat)} (hreadable : ∀ value ∈ operands, Readable engine shape value)
    (h : outcomeOf (stridesBuffers names operands (shape.map Int.ofNat)) engine = .ok helpers) :
    AllHold (stateAfter (stridesBuffers names operands (shape.map Int.ofNat)) engine).device helpers
      (strideTables engine shape (names.zip operands)) := by
  obtain ⟨inputs, out, rfl, hinputs, hout⟩ := filled_of_stridesBuffers h
  have hread : ∀ array ∈ namedArrays (names.zip operands),
      Layout.broadcast (engine.array array.2).shapeInts (engine.array array.2).strideInts
        (shape.map Int.ofNat) = .ok ((Layout.boundStrides (engine.array array.2).shape
          (engine.array array.2).strides shape).map Int.ofNat) := by
    intro array hmem
    obtain ⟨described, hmem⟩ := exists_of_mem_namedArrays hmem
    obtain ⟨hstretches, hlength⟩ := hreadable _ (List.of_mem_zip hmem).2 _ _ rfl
    exact Layout.broadcast_eq hstretches hlength
  rw [Layout.contiguous_eq] at hout
  rw [strideTables, filterMap_strideTable?]
  refine List.rel_append ?_ (.cons ⟨rfl, holds_of_filled hout⟩ .nil)
  rw [List.forall₂_map_right_iff]
  refine (((List.forall₂_and_left _ _).mpr ⟨hread, hinputs⟩).flip).imp ?_
  rintro helper array ⟨hbroadcast, hname, strides, hstrides, hfilled⟩
  rw [hbroadcast] at hstrides
  cases hstrides
  exact ⟨hname, holds_of_filled hfilled⟩

end Action

end ComputeArray
