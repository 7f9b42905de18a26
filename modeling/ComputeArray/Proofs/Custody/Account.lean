import ComputeArray.Proofs.Lifetime.Tenure
import ComputeArray.Proofs.Memory.Fitting
import Mathlib.Algebra.GroupWithZero.Nat
import Mathlib.Data.List.Perm.Basic
import Mathlib.Data.List.Range

/-!
# Accounts of buffers

Every buffer of a device is in one place: an array that has not been released owns it, it waits in
the queue, it has been destroyed, or a load that is under way is read back into it. What is in none
of these places is loose. `Engine.Custody` keeps account of all buffers and of the sizes of arrays,
and `Engine.Exchanges` says that a change takes some loose buffers into their places and leaves
others loose.
-/

set_option autoImplicit false

namespace ComputeArray

namespace Device

/-- The buffers the device has been asked to destroy. -/
def destroyed (device : Device) : List Nat :=
  device.calls.toList.filterMap fun
    | .destroyBuffer buffer => some buffer
    | _ => none

/-- The buffers that were created to hold strides. -/
def strides (device : Device) : List Nat :=
  device.calls.toList.filterMap fun
    | .createFilledBuffer buffer _ _ => some buffer
    | _ => none

variable {device later : Device}

theorem destroyed_of_push {call : Call} (h : later.calls = device.calls.push call)
    (hcall : ∀ buffer, call ≠ .destroyBuffer buffer) : later.destroyed = device.destroyed := by
  unfold destroyed
  rw [h, Array.toList_push, List.filterMap_append]
  cases call with
  | destroyBuffer buffer => exact absurd rfl (hcall buffer)
  | _ => exact List.append_nil _

theorem destroyed_of_quietUntil (h : device.QuietUntil later) :
    later.destroyed = device.destroyed :=
  h.filterMap_eq fun call hquiet ↦ by
    cases call with
    | destroyBuffer buffer => exact hquiet.elim
    | _ => rfl

theorem strides_subset_of_append {calls : List Call}
    (h : later.calls.toList = device.calls.toList ++ calls) : device.strides ⊆ later.strides := by
  unfold strides
  rw [h, List.filterMap_append]
  exact List.subset_append_left _ _

theorem strides_subset_of_push {call : Call} (h : later.calls = device.calls.push call) :
    device.strides ⊆ later.strides :=
  strides_subset_of_append (h ▸ Array.toList_push)

end Device

namespace Engine

/-- The buffers of arrays that have not been released. -/
def owned (engine : Engine) : List Nat :=
  (engine.arrays.filter fun entry ↦ !entry.2.released).map Prod.fst

def queued (engine : Engine) : List Nat := engine.pending.map Prod.snd

/-- The buffers loads under way are read back into. -/
def staging (engine : Engine) : List Nat :=
  engine.arrays.filterMap fun entry ↦ entry.2.loading.readBack?.map ReadBack.staging

/-- All buffers of the device are in their places or among the loose ones, each of them once. -/
def Accounts (loose : List Nat) (engine : Engine) : Prop :=
  (List.range' 1 engine.device.buffers.size).Perm
    (engine.owned ++ engine.queued ++ engine.device.destroyed ++ engine.staging ++ loose)

end Engine

/-- The bytes of an array hold its elements, and unless strides were given these are as many as its
shape has. -/
structure ArrayState.Sized (array : ArrayState) (bytes : Nat) : Prop where
  bytes : storageBytes array.element array.count = .ok bytes
  count : array.customStrides = false → array.length = .ok array.count

/-- The arrays have as many elements of the same type. -/
structure ArrayState.SameSize (old new : ArrayState) : Prop where
  element : new.element = old.element
  count : new.count = old.count
  customStrides : new.customStrides = old.customStrides
  length : old.customStrides = false → new.length = old.length

/-- What says how large an array is. -/
def ArrayState.frame (array : ArrayState) : ElementType × List Nat × Bool × Int :=
  (array.element, array.shape, array.customStrides, array.count)

theorem ArrayState.SameSize.of_frame {old new : ArrayState} (h : new.frame = old.frame) :
    old.SameSize new := by
  simp only [frame, Prod.mk.injEq] at h
  obtain ⟨helement, hshape, hcustom, hcount⟩ := h
  refine ⟨helement, hcount, hcustom, fun _ ↦ ?_⟩
  rw [ArrayState.length, ArrayState.length, ArrayState.shapeInts, ArrayState.shapeInts, hshape]

theorem ArrayState.Sized.of_sameSize {old new : ArrayState} {bytes : Nat} (h : old.Sized bytes)
    (hsame : old.SameSize new) : new.Sized bytes where
  bytes := by rw [hsame.element, hsame.count, h.bytes]
  count hplain := by
    rw [hsame.customStrides] at hplain
    rw [hsame.length hplain, hsame.count, h.count hplain]

namespace Engine

/-- Arrays are told apart by their buffers, which have their sizes, samples that are kept
are arrays, and as long as the device is not lost account is kept of all buffers. -/
structure Custody (loose : List Nat) (engine : Engine) : Prop where
  keys : (engine.arrays.map Prod.fst).Nodup
  numbered : ∀ buffer ∈ engine.arrays.map Prod.fst, buffer ≤ engine.device.buffers.size
  sized : ∀ entry ∈ engine.arrays, entry.2.Sized (engine.device.sizeOf entry.1)
  kept : ∀ entry ∈ engine.generators, ∀ samples, entry.2.kept = some samples →
    samples.2 ∈ engine.arrays.map Prod.fst
  accounts : engine.lost = none → engine.Accounts loose

/-- How often a buffer is in some place. -/
def places (engine : Engine) (buffer : Nat) : Nat :=
  engine.owned.count buffer + engine.queued.count buffer + engine.device.destroyed.count buffer +
    engine.staging.count buffer

variable {engine before after : Engine} {loose spare left : List Nat} {buffer : Nat}

theorem accounts_iff : engine.Accounts loose ↔ ∀ buffer,
    (List.range' 1 engine.device.buffers.size).count buffer =
      engine.places buffer + loose.count buffer := by
  simp only [Accounts, List.perm_iff_count, List.count_append, places]

theorem Custody.perm (h : engine.Custody loose) (hperm : loose.Perm left) :
    engine.Custody left where
  keys := h.keys
  numbered := h.numbered
  sized := h.sized
  kept := h.kept
  accounts hactive := (h.accounts hactive).trans (hperm.append_left _)

theorem Custody.numbered_arrays (h : engine.Custody loose) : engine.Numbered :=
  numbered_of_keys fun buffer hmem ↦ Nat.lt_succ_of_le (h.numbered buffer hmem)

/-- The change takes the spare buffers to their places and leaves others loose. -/
structure Exchanges (spare left : List Nat) (before after : Engine) : Prop where
  custody : ∀ loose, before.Custody (spare ++ loose) → after.Custody (left ++ loose)
  keys : before.arrays.map Prod.fst ⊆ after.arrays.map Prod.fst
  count : before.device.buffers.size ≤ after.device.buffers.size
  strides : before.device.strides ⊆ after.device.strides

namespace Exchanges

theorem refl (spare : List Nat) (engine : Engine) : Exchanges spare spare engine engine :=
  ⟨fun _ ↦ id, List.Subset.refl _, Nat.le_refl _, List.Subset.refl _⟩

theorem trans {first middle last : Engine} {between : List Nat}
    (hfirst : Exchanges spare between first middle) (hlast : Exchanges between left middle last) :
    Exchanges spare left first last where
  custody loose h := hlast.custody loose (hfirst.custody loose h)
  keys := List.Subset.trans hfirst.keys hlast.keys
  count := Nat.le_trans hfirst.count hlast.count
  strides := List.Subset.trans hfirst.strides hlast.strides

/-- A change of the places of buffers that adds up, and leaves all arrays as they are. -/
theorem of_places (harrays : after.arrays = before.arrays)
    (hgenerators : after.generators = before.generators)
    (hextends : before.device.Extends after.device)
    (hstrides : before.device.strides ⊆ after.device.strides)
    (hlost : after.lost = none → before.lost = none)
    (hplaces : ∀ buffer,
      (List.range' 1 after.device.buffers.size).count buffer + before.places buffer +
          spare.count buffer =
        (List.range' 1 before.device.buffers.size).count buffer + after.places buffer +
          left.count buffer) : Exchanges spare left before after where
  custody loose h := by
    refine ⟨harrays ▸ h.keys, fun buffer hmem ↦ ?_, fun entry hmem ↦ ?_,
      fun entry hmem samples hkept ↦ ?_, fun hactive ↦ accounts_iff.mpr fun buffer ↦ ?_⟩
    · exact Nat.le_trans (h.numbered buffer (harrays ▸ hmem)) hextends.count
    · rw [harrays] at hmem
      rw [hextends.size entry.1 (h.numbered entry.1 (List.mem_map_of_mem hmem))]
      exact h.sized entry hmem
    · rw [harrays]
      exact h.kept entry (hgenerators ▸ hmem) samples hkept
    · have hbefore := accounts_iff.mp (h.accounts (hlost hactive)) buffer
      have hchange := hplaces buffer
      rw [List.count_append] at hbefore ⊢
      omega
  keys := harrays ▸ List.Subset.refl _
  count := hextends.count
  strides := hstrides

end Exchanges

/-- Nothing comes loose. -/
abbrev Preserves (before after : Engine) : Prop := Exchanges [] [] before after

instance : Std.Refl Preserves := ⟨Exchanges.refl []⟩

instance : IsTrans Engine Preserves := ⟨fun _ _ _ ↦ Exchanges.trans⟩

theorem Preserves.exchanges (h : Preserves before after) (spare : List Nat) :
    Exchanges spare spare before after where
  custody loose := h.custody (spare ++ loose)
  keys := h.keys
  count := h.count
  strides := h.strides

/-- Nobody keeps account of the buffers of a lost device. -/
theorem exchanges_of_lost (hlost : after.lost ≠ none) (harrays : after.arrays = before.arrays)
    (hgenerators : after.generators = before.generators) (hdevice : after.device = before.device) :
    Exchanges spare left before after where
  custody loose h := by
    refine ⟨harrays ▸ h.keys, ?_, ?_, ?_, fun hactive ↦ absurd hactive hlost⟩
    · rw [harrays, hdevice]
      exact h.numbered
    · rw [harrays, hdevice]
      exact h.sized
    · rw [harrays, hgenerators]
      exact h.kept
  keys := harrays ▸ List.Subset.refl _
  count := Nat.le_of_eq (by rw [hdevice])
  strides := hdevice ▸ List.Subset.refl _

/-! ### Changes that leave all buffers where they are -/

/-- No array changes, and no buffer is created or destroyed. -/
theorem preserves_of_arrays (harrays : after.arrays = before.arrays)
    (hgenerators : after.generators = before.generators) (hpending : after.pending = before.pending)
    (hextends : before.device.Extends after.device)
    (hcount : after.device.buffers.size = before.device.buffers.size)
    (hdestroyed : after.device.destroyed = before.device.destroyed)
    (hstrides : before.device.strides ⊆ after.device.strides)
    (hlost : after.lost = none → before.lost = none) : Preserves before after := by
  refine .of_places harrays hgenerators hextends hstrides hlost fun buffer ↦ ?_
  have hplaces : after.places buffer = before.places buffer := by
    rw [places, places, owned, owned, staging, staging, queued, queued, harrays, hpending,
      hdestroyed]
  rw [hcount, hplaces]

/-- A call that neither creates nor destroys a buffer. -/
theorem preserves_of_push {device : Device} {call : Call}
    (hcalls : device.calls = engine.device.calls.push call)
    (hcall : ∀ buffer, call ≠ .destroyBuffer buffer) (hextends : engine.device.Extends device)
    (hcount : device.buffers.size = engine.device.buffers.size) :
    Preserves engine { engine with device } :=
  preserves_of_arrays rfl rfl rfl hextends hcount (Device.destroyed_of_push hcalls hcall)
    (Device.strides_subset_of_push hcalls) id

theorem preserves_of_compiles (h : Compiles before after) : Preserves before after := by
  have hstrides : before.device.strides ⊆ after.device.strides := by
    obtain ⟨calls, hcalls, -⟩ := h.quiet
    exact Device.strides_subset_of_append hcalls
  have hlost : after.lost = before.lost := congrArg (·.2.1) h.rest
  exact preserves_of_arrays h.arrays h.generators h.pending (.of_buffers_eq h.buffers)
    (by rw [h.buffers]) (Device.destroyed_of_quietUntil h.quiet) hstrides
    fun hactive ↦ hlost ▸ hactive

end Engine

/-! ### Arrays -/

/-- How often an array, at a buffer of its own, gives a place to a buffer. -/
def ArrayState.placesAt (array : ArrayState) (own buffer : Nat) : Nat :=
  (if array.released then [] else [own]).count buffer +
    (array.loading.readBack?.map ReadBack.staging).toList.count buffer

namespace Engine

variable {engine before after : Engine} {loose spare left : List Nat} {buffer : Nat}

/-- The places of a buffer, array by array. -/
theorem places_eq (engine : Engine) (buffer : Nat) :
    engine.places buffer = (engine.arrays.map fun entry ↦ entry.2.placesAt entry.1 buffer).sum +
      engine.queued.count buffer + engine.device.destroyed.count buffer := by
  have hsum (entries : List (Nat × ArrayState)) :
      ((entries.filter fun entry ↦ !entry.2.released).map Prod.fst).count buffer +
          (entries.filterMap fun entry ↦
            entry.2.loading.readBack?.map ReadBack.staging).count buffer =
        (entries.map fun entry ↦ entry.2.placesAt entry.1 buffer).sum := by
    induction entries with
    | nil => rfl
    | cons entry rest ih =>
      rw [List.map_cons, List.sum_cons, ← ih, List.filter_cons, List.filterMap_cons,
        ArrayState.placesAt]
      cases entry.2.released <;> cases entry.2.loading.readBack? <;>
        simp [List.count_cons] <;> omega
  rw [places, owned, staging, ← hsum]
  omega

theorem keys_setArray (buffer : Nat) (array : ArrayState) (engine : Engine) :
    (engine.setArray buffer array).arrays.map Prod.fst = engine.arrays.map Prod.fst := by
  rw [setArray, List.map_map]
  rfl

theorem setArray_of_lookup {array : ArrayState} (h : engine.arrays.lookup buffer = none) :
    engine.setArray buffer array = engine := by
  have hsame : engine.arrays.map (fun entry ↦
      (entry.1, if entry.1 = buffer then array else entry.2)) = engine.arrays := by
    refine (List.map_congr_left fun entry hmem ↦ ?_).trans (List.map_id _)
    have hne := List.lookup_eq_none_iff.mp h entry hmem
    rw [if_neg (Ne.symm (bne_iff_ne.mp hne)), id]
  change { engine with arrays := engine.arrays.map fun entry ↦
    (entry.1, if entry.1 = buffer then array else entry.2) } = engine
  rw [hsame]

/-- One array is exchanged for another, the others stay. -/
theorem places_setArray {old : ArrayState} (array : ArrayState)
    (hkeys : (engine.arrays.map Prod.fst).Nodup)
    (hlookup : engine.arrays.lookup buffer = some old) (other : Nat) :
    (engine.setArray buffer array).places other + old.placesAt buffer other =
      engine.places other + array.placesAt buffer other := by
  obtain ⟨earlier, later, hsplit, hearlier⟩ := List.lookup_eq_some_iff.mp hlookup
  have hkept (entries : List (Nat × ArrayState)) (hother : ∀ entry ∈ entries, entry.1 ≠ buffer) :
      (entries.map fun entry ↦ (entry.1, if entry.1 = buffer then array else entry.2)) =
        entries := by
    refine (List.map_congr_left fun entry hmem ↦ ?_).trans (List.map_id _)
    rw [if_neg (hother entry hmem), id]
  have hlater : ∀ entry ∈ later, entry.1 ≠ buffer := by
    rw [hsplit, List.map_append, List.map_cons] at hkeys
    have hnotin := (List.nodup_cons.mp (List.nodup_append.mp hkeys).2.1).1
    exact fun entry hmem heq ↦ hnotin (List.mem_map.mpr ⟨entry, hmem, heq⟩)
  have hset : (engine.setArray buffer array).arrays = earlier ++ (buffer, array) :: later := by
    change engine.arrays.map
      (fun entry ↦ (entry.1, if entry.1 = buffer then array else entry.2)) = _
    rw [hsplit, List.map_append, List.map_cons,
      hkept earlier fun entry hmem ↦ Ne.symm (bne_iff_ne.mp (hearlier entry hmem)),
      hkept later hlater, if_pos rfl]
  have hqueued : (engine.setArray buffer array).queued = engine.queued := rfl
  have hdestroyed : (engine.setArray buffer array).device.destroyed = engine.device.destroyed := rfl
  rw [places_eq, places_eq, hset, hsplit, hqueued, hdestroyed]
  simp only [List.map_append, List.map_cons, List.sum_append, List.sum_cons]
  omega

/-- An exchange of one array for another that takes loose buffers to their places or leaves
buffers loose. -/
theorem exchanges_setArray {old array : ArrayState}
    (hlookup : engine.arrays.lookup buffer = some old) (hsize : old.SameSize array)
    (hplaces : ∀ other, array.placesAt buffer other + left.count other =
      old.placesAt buffer other + spare.count other) :
    Exchanges spare left engine (engine.setArray buffer array) where
  custody loose h := by
    have hkeys := keys_setArray buffer array engine
    refine ⟨hkeys ▸ h.keys, hkeys ▸ h.numbered, fun entry hmem ↦ ?_, hkeys ▸ h.kept,
      fun hactive ↦ accounts_iff.mpr fun other ↦ ?_⟩
    · obtain ⟨found, hfound, rfl⟩ := List.mem_map.mp hmem
      dsimp only
      split
      · next heq =>
        have hmem := mem_of_lookup hlookup
        exact heq ▸ (h.sized _ hmem).of_sameSize hsize
      · exact h.sized found hfound
    have hbefore := accounts_iff.mp (h.accounts hactive) other
    have hset := places_setArray array h.keys hlookup other
    have hchange := hplaces other
    have hdevice : (engine.setArray buffer array).device = engine.device := rfl
    rw [hdevice]
    rw [List.count_append] at hbefore ⊢
    omega
  keys := keys_setArray buffer array engine ▸ List.Subset.refl _
  count := Nat.le_refl _
  strides := List.Subset.refl _

/-- A change of an array that leaves its tenure and its size. -/
theorem preserves_setArray {array : ArrayState} (hsize : (engine.array buffer).SameSize array)
    (hreleased : array.released = (engine.array buffer).released)
    (hloading : array.loading.readBack? = (engine.array buffer).loading.readBack?) :
    Preserves engine (engine.setArray buffer array) := by
  cases hlookup : engine.arrays.lookup buffer with
  | none =>
    rw [setArray_of_lookup hlookup]
    exact .refl [] engine
  | some old =>
    rw [array_of_lookup hlookup] at hsize hreleased hloading
    refine exchanges_setArray hlookup hsize fun other ↦ ?_
    rw [ArrayState.placesAt, ArrayState.placesAt, hreleased, hloading]

end Engine

end ComputeArray
