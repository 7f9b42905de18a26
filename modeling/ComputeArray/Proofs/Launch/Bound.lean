import ComputeArray.Proofs.Kernel.Lane
import ComputeArray.Proofs.Launch.Plan
import ComputeArray.Proofs.Launch.Strides
import ComputeArray.Proofs.Lookup

/-!
# What a pass binds

The cells a kernel finds at the slots of a pass are the elements of the arrays bound there, or the
words of the buffers without a host copy. Each operand of a plan is given its element at its offset
(`given_of_planned`), and the stride buffers are listed under the names of the operands
(`lists_of_allHold`).
-/

set_option autoImplicit false

namespace ComputeArray

open Kernel Elementwise

variable {α : Type}

namespace Dispatch

/-- The cells behind a slot: the elements of an array, or the words of a plain buffer. -/
def cells (pass : Dispatch) (device : Device) (contents : Nat → List α) (slot : Int) :
    Option (List (Datum α)) :=
  if slot < 0 then none
  else
    match pass.bindings[slot.toNat]? with
    | some (.array buffer, _) => some ((contents buffer).map .element)
    | some (.plain buffer, _) =>
      some (((device.bytesOf buffer).elements 4 (device.sizeOf buffer / 4)).map .word)
    | none => none

/-- The override constants of a pass. -/
def constant (pass : Dispatch) (datum : Value → Datum α) (name : String) : Option (Datum α) :=
  (pass.constants.lookup name).map datum

variable {pass : Dispatch} {device : Device} {contents : Nat → List α} {slot buffer : Nat}
  {mode : Mode}

theorem cells_array (h : pass.bindings[slot]? = some (.array buffer, mode)) :
    pass.cells device contents slot = some ((contents buffer).map .element) := by
  rw [cells, if_neg (by omega), Int.toNat_natCast, h]

theorem cells_plain {words : List Nat} (h : pass.bindings[slot]? = some (.plain buffer, mode))
    (hholds : device.Holds buffer words) :
    pass.cells device contents slot = some (words.map .word) := by
  have hcount : device.sizeOf buffer / 4 = words.length := by
    rw [Device.sizeOf, hholds.bytes, Bytes.size_ofWords]
    omega
  rw [cells, if_neg (by omega), Int.toNat_natCast, h]
  dsimp only
  rw [hcount, hholds.bytes, Bytes.elements_ofWords hholds.words]

end Dispatch

/-! ### Operands -/

/-- The element an operand has at an index of the output: that of an array at the source of the
index, or that of a scalar's constant. -/
inductive ElementAt (engine : Engine) (contents : Nat → List α) (scalar : Value → α)
    (index : List Nat) : Value × ElementType → α → Prop where
  | array {buffer : Nat} {described : String} {target : ElementType} {element : α}
      (found : (contents buffer)[Layout.sourceOffset (engine.array buffer).shape
        (engine.array buffer).strides index]? = some element) :
      ElementAt engine contents scalar index (.array buffer described, target) element
  | scalar {value constant : Value} {target : ElementType}
      (noArray : ∀ buffer described, value ≠ .array buffer described)
      (stored : OperandPlan.constantOf target value = .ok constant) :
      ElementAt engine contents scalar index (value, target) (scalar constant)

/-- A planned operand is given its element at its offset. -/
theorem given_of_planned {engine : Engine} {plan : OperandPlan} {pass : Dispatch} {device : Device}
    {contents : Nat → List α} {scalar : Value → α} {index : List Nat} {offset : String → Nat}
    {item : String × Value × ElementType} {operand : Operand}
    (h : OperandPlan.Planned engine plan item operand)
    (hbindings : plan.bindings <+: pass.bindings) (hconstants : pass.constants = plan.constants)
    (hoffset : ∀ buffer described, item.2.1 = .array buffer described →
      offset item.1 = Layout.sourceOffset (engine.array buffer).shape
        (engine.array buffer).strides index ∧ offset item.1 < (contents buffer).length) :
    ∃ element, ElementAt engine contents scalar index item.2 element ∧
      Given (pass.constant fun value ↦ .element (scalar value)) (pass.cells device contents) offset
        (item.1, operand) element := by
  have htypes := h.types
  cases h with
  | @array name buffer slot described target bound =>
    obtain ⟨hsource, hlt⟩ := hoffset buffer described rfl
    have hbound : pass.bindings[slot]? = some (.array buffer, .read) := by
      obtain ⟨later, hlater⟩ := hbindings
      rw [← hlater, List.getElem?_append_left (List.getElem?_eq_some_iff.mp bound).1]
      exact bound
    refine ⟨(contents buffer)[offset name], .array ?_, htypes.2, (fun h ↦ by cases h),
      fun found hfound ↦ ?_⟩
    · rw [← hsource]
      exact List.getElem?_eq_getElem hlt
    · cases hfound
      refine ⟨_, Dispatch.cells_array hbound, ?_⟩
      rw [List.getElem?_map, List.getElem?_eq_getElem hlt]
      rfl
  | @scalar name value constant target noArray stored listed =>
    refine ⟨scalar constant, .scalar noArray stored, htypes.2, fun _ ↦ ?_, fun slot hslot ↦ ?_⟩
    · rw [Dispatch.constant, hconstants, listed]
      rfl
    · rw [OperandPlan.slot_scalarOperand] at hslot
      cases hslot

/-! ### Stride buffers -/

theorem lookup_strideSlots {helpers : List (String × Nat)} {outSlot k : Nat} {name : String}
    {buffer : Nat} (hnodup : (helpers.map Prod.fst).Nodup) (h : helpers[k]? = some (name, buffer)) :
    (Launch.strideSlots outSlot helpers).lookup name =
      some (some ((outSlot + 1 + k : Nat) : Int)) := by
  have hk : k < helpers.length := (List.getElem?_eq_some_iff.mp h).1
  have hkeys : (Launch.strideSlots outSlot helpers).map Prod.fst = helpers.map Prod.fst := by
    have hsecond : ((List.range helpers.length).zip helpers).map Prod.snd = helpers :=
      List.map_snd_zip (by simp)
    rw [Launch.strideSlots, List.map_map]
    conv_rhs => rw [← hsecond, List.map_map]
    rfl
  have hmem : (k, name, buffer) ∈ (List.range helpers.length).zip helpers := by
    refine List.mem_iff_getElem?.mpr ⟨k, ?_⟩
    rw [List.getElem?_zip_eq_some]
    exact ⟨List.getElem?_range hk, h⟩
  refine lookup_of_mem (by rwa [hkeys]) ?_
  exact List.mem_map.mpr ⟨_, hmem, rfl⟩

/-- Buffers that hold tables and are bound behind the output are listed with their words. -/
theorem lists_of_allHold {pass : Dispatch} {device : Device} {contents : Nat → List α}
    {helpers : List (String × Nat)} {tables : List (String × List Nat)} {outSlot : Nat}
    {before : List (Resource × Mode)} {name : String} {words : List Nat}
    (hhold : Action.AllHold device helpers tables) (hnodup : (tables.map Prod.fst).Nodup)
    (hbindings : pass.bindings =
      before ++ (helpers.map Prod.snd).map fun buffer ↦ (Resource.plain buffer, Mode.read))
    (hbefore : before.length = outSlot + 1) (hmem : (name, words) ∈ tables) :
    Lists (Launch.strideSlots outSlot helpers) (pass.cells device contents) name words := by
  have hnames : tables.map Prod.fst = helpers.map Prod.fst :=
    names_of_forall₂ hhold fun _ _ h ↦ h.1.symm
  obtain ⟨k, hk, htable⟩ := List.getElem_of_mem hmem
  have hlt : k < helpers.length := by rw [hhold.length_eq]; exact hk
  obtain ⟨hname, hholds⟩ := hhold.get hlt hk
  simp only [List.get_eq_getElem, htable] at hname hholds
  have hhelper : helpers[k]? = some (name, helpers[k].2) := by
    rw [List.getElem?_eq_getElem hlt, ← hname]
  have hbound : pass.bindings[outSlot + 1 + k]? = some (.plain helpers[k].2, .read) := by
    rw [hbindings, List.getElem?_append_right (by omega), hbefore, Nat.add_sub_cancel_left,
      List.getElem?_map, List.getElem?_map, hhelper]
    rfl
  exact ⟨_, lookup_strideSlots (by rwa [← hnames]) hhelper, Dispatch.cells_plain hbound hholds⟩

end ComputeArray
