import ComputeArray.Engine.Launch
import ComputeArray.Proofs.Layout.Count

/-!
# Sources of arrays

An array that stretches to a shape has an element at the source of every index of that shape
(`sourceOffset_lt_count`). If its layout is that of the shape itself, the source lies at the number
of the index (`sourceOffset_of_contiguous`).
-/

set_option autoImplicit false

namespace ComputeArray

namespace Layout

open Shape

variable {shape index : List Nat}

/-- Within a shape, an index is its own source. -/
theorem sourceIndex_self (h : List.Forall₂ (· < ·) index shape) :
    sourceIndex shape index = index := by
  rw [sourceIndex, h.length_eq, Nat.sub_self, List.drop_zero]
  induction h with
  | nil => rfl
  | @cons m extent index rest hm _ ih =>
    rw [List.zipWith_cons_cons, ih]
    congr 1
    by_cases hone : extent = 1
    · rw [if_pos hone]
      omega
    · rw [if_neg hone]

theorem sourceOffset_of_contiguous (hpos : ∀ extent ∈ shape, 0 < extent) {i : Nat}
    (hi : i < volume shape) : sourceOffset shape (steps shape) (Shape.index shape i) = i := by
  rw [sourceOffset, sourceIndex_self (index_lt hpos hi), offsetAt_steps_index hpos hi]

end Layout

namespace ArrayState

open Layout Shape

/-- An array as it is made: positive extents, strides given or
row-major, and the elements counted. -/
structure WellLaid (array : ArrayState) : Prop where
  nonempty : array.shape ≠ []
  positive : ∀ extent ∈ array.shape, 0 < extent
  lengths : array.strides.length = array.shape.length
  strides : array.customStrides = false → array.strides = steps array.shape
  count :
    elementCount array.shapeInts (if array.customStrides then some array.strideInts else none) =
    .ok array.count

variable {array : ArrayState} {target index : List Nat}

/-- The source of an index is one of the array's elements. -/
theorem sourceOffset_lt_count (h : array.WellLaid) (hstretches : Stretches array.shape target)
    (hpos : ∀ extent ∈ target, 0 < extent) (hvolume : volume target < 2 ^ 63)
    (hindex : List.Forall₂ (· < ·) index target) :
    (sourceOffset array.shape array.strides index : Int) < array.count := by
  have hsource := sourceIndex_lt hstretches h.positive hindex
  have hcount := h.count
  by_cases hcustom : array.customStrides = true
  · rw [if_pos hcustom] at hcount
    rw [← Except.ok.inj hcount]
    exact offsetAt_lt_spannedCount hsource h.lengths
  · have hcontiguous := h.strides (Bool.eq_false_iff.mpr hcustom)
    have hle := volume_le_of_stretches hstretches hpos
    have hwhole : contiguousCount array.shapeInts = .ok (volume array.shape : Int) :=
      contiguousCount_eq h.positive (Nat.lt_of_le_of_lt hle hvolume)
    rw [if_neg hcustom] at hcount
    have hsame := Except.ok.inj (hwhole.symm.trans hcount)
    rw [← hsame, sourceOffset, hcontiguous]
    exact Int.ofNat_lt.mpr (offsetAt_steps_lt hsource)

end ArrayState

end ComputeArray
