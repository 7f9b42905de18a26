import ComputeArray.Proofs.Layout.Broadcast

/-!
# Counts of elements

An array read at a source index is read at one of its elements: the offset is less than the number
of elements that contiguous or custom strides span (`sourceOffset_lt_volume`,
`sourceOffset_lt_spannedCount`).
-/

set_option autoImplicit false

namespace ComputeArray

namespace Layout

open Shape

variable {shape target strides index : List Nat}

/-! ### Contiguous arrays -/

theorem le_volume (hpos : ∀ extent ∈ shape, 0 < extent) {extent : Nat} (hmem : extent ∈ shape) :
    extent ≤ volume shape := by
  induction shape with
  | nil => cases hmem
  | cons first rest ih =>
    have hrest : ∀ other ∈ rest, 0 < other :=
      fun other hother ↦ hpos other (List.mem_cons_of_mem first hother)
    rw [volume_cons]
    rcases List.mem_cons.mp hmem with rfl | hlater
    · exact Nat.le_mul_of_pos_right _ (volume_pos hrest)
    · exact Nat.le_trans (ih hrest hlater) (Nat.le_mul_of_pos_left _ (hpos first (by simp)))

theorem wrapWord_eq {n : Nat} (h : n < 2 ^ 63) : wrapWord (n : Int) = n := by
  have hwords : twoTo 64 = 2 ^ 64 := rfl
  rw [wrapWord, Word.wrapSigned, hwords]
  exact Int.bmod_eq_of_le_mul_two (by omega) (by omega)

theorem holdsSigned_iff {n : Nat} : Word.holdsSigned 64 (n : Int) = true ↔ n < 2 ^ 63 := by
  have hhalf : twoTo 63 = 2 ^ 63 := rfl
  unfold Word.holdsSigned
  simp only [Nat.add_one_sub_one, hhalf, Bool.and_eq_true, decide_eq_true_eq]
  omega

theorem foldl_wrapWord (shape : List Nat) (start : Nat)
    (hpos : ∀ extent ∈ shape, 0 < extent) (h : start * volume shape < 2 ^ 63) :
    (shape.map Int.ofNat).foldl (fun product word ↦ wrapWord (product * word)) (start : Int) =
      ((start * volume shape : Nat) : Int) := by
  induction shape generalizing start with
  | nil => simp
  | cons extent rest ih =>
    have hrest : ∀ other ∈ rest, 0 < other :=
      fun other hmem ↦ hpos other (List.mem_cons_of_mem extent hmem)
    rw [volume_cons, ← Nat.mul_assoc] at h
    have hle : start * extent ≤ start * extent * volume rest :=
      Nat.le_mul_of_pos_right _ (volume_pos hrest)
    have hword :
        wrapWord ((start : Int) * (Int.ofNat extent)) = ((start * extent : Nat) : Int) := by
      change wrapWord ((start : Int) * (extent : Int)) = _
      rw [← Int.natCast_mul]
      exact wrapWord_eq (Nat.lt_of_le_of_lt hle h)
    rw [List.map_cons, List.foldl_cons, hword, ih (start * extent) hrest h, volume_cons,
      Nat.mul_assoc]

/-- Extents that multiply out to a machine word are counted by their product. -/
theorem contiguousCount_eq (hpos : ∀ extent ∈ shape, 0 < extent) (h : volume shape < 2 ^ 63) :
    contiguousCount (shape.map Int.ofNat) = .ok (volume shape : Int) := by
  have hsigned : ∀ extent ∈ shape, Word.holdsSigned 64 (extent : Int) = true := by
    intro extent hmem
    have hle := le_volume hpos hmem
    exact holdsSigned_iff.mpr (Nat.lt_of_le_of_lt hle h)
  have hsame : (shape.map Int.ofNat).map wrapWord = shape.map Int.ofNat := by
    rw [List.map_map]
    refine List.map_congr_left fun extent hmem ↦ ?_
    have hlt : extent < 2 ^ 63 := Nat.lt_of_le_of_lt (le_volume hpos hmem) h
    rw [Function.comp_apply, Int.ofNat_eq_natCast, wrapWord_eq hlt]
  have hwords : extentWords (shape.map Int.ofNat) = .ok (shape.map Int.ofNat) := by
    have hfits : ((shape.map Int.ofNat).any fun extent ↦
        !Word.holdsSigned 64 extent && !Word.holdsUnsigned 64 extent) = false := by
      rw [List.any_eq_false]
      intro extent hmem
      obtain ⟨n, hn, rfl⟩ := List.mem_map.mp hmem
      simp [hsigned n hn]
    have hlarge : ((shape.map Int.ofNat).any fun extent ↦ !Word.holdsSigned 64 extent) = false := by
      rw [List.any_eq_false]
      intro extent hmem
      obtain ⟨n, hn, rfl⟩ := List.mem_map.mp hmem
      simp [hsigned n hn]
    simp only [extentWords, hfits, hlarge, hsame, Bool.false_eq_true, false_and, if_false, bind,
      Except.bind, pure, Except.pure]
  have hfold := foldl_wrapWord shape 1 hpos (by rwa [Nat.one_mul])
  rw [Nat.one_mul] at hfold
  simp only [contiguousCount, hwords, bind, Except.bind, pure, Except.pure]
  exact congrArg Except.ok hfold

/-- A contiguous array has an element at each index within its shape. -/
theorem offsetAt_steps_lt (h : List.Forall₂ (· < ·) index shape) :
    offsetAt (steps shape) index < volume shape := by
  induction h with
  | nil => exact Nat.one_pos
  | @cons m extent index rest hm _ ih =>
    rw [steps, offsetAt_cons, volume_cons]
    have hle : volume rest * m + volume rest ≤ extent * volume rest := by
      rw [← Nat.mul_succ, Nat.mul_comm extent]
      exact Nat.mul_le_mul_left _ hm
    omega

/-! ### Custom strides -/

theorem foldl_add (terms : List Int) (start : Int) :
    terms.foldl (· + ·) start = start + terms.foldr (· + ·) 0 := by
  induction terms generalizing start with
  | nil => simp
  | cons term rest ih => rw [List.foldl_cons, ih, List.foldr_cons, Int.add_assoc]

/-- Strides span an element at each index within the shape. -/
theorem offsetAt_lt_spannedCount (h : List.Forall₂ (· < ·) index shape)
    (hstrides : strides.length = shape.length) :
    (offsetAt strides index : Int) <
      spannedCount (shape.map Int.ofNat) (strides.map Int.ofNat) := by
  have hsum : (offsetAt strides index : Int) ≤
      (((shape.map Int.ofNat).zip (strides.map Int.ofNat)).map
        fun pair ↦ (pair.1 - 1) * pair.2).foldr (· + ·) 0 := by
    induction h generalizing strides with
    | nil =>
      rw [List.length_nil, List.length_eq_zero_iff] at hstrides
      subst hstrides
      exact Int.le_refl _
    | @cons m extent index rest hm _ ih =>
      cases strides with
      | nil => cases hstrides
      | cons stride strides =>
        have hrest := ih (Nat.succ.inj hstrides)
        have hfirst : ((stride * m : Nat) : Int) ≤ ((extent : Int) - 1) * (stride : Int) := by
          have hm' : (m : Int) ≤ (extent : Int) - 1 := by omega
          rw [Nat.mul_comm, Int.natCast_mul]
          exact Int.mul_le_mul_of_nonneg_right hm' (Int.natCast_nonneg stride)
        simp only [List.map_cons, List.zip_cons_cons, List.foldr_cons, offsetAt_cons]
        rw [Int.natCast_add]
        exact Int.add_le_add hfirst hrest
  rw [spannedCount, foldl_add, Int.zero_add]
  exact Int.lt_add_one_of_le hsum

/-! ### Sources -/

/-- The index of a source lies within the array. -/
theorem sourceIndex_lt (h : Stretches shape target) (hpos : ∀ extent ∈ shape, 0 < extent)
    (hindex : List.Forall₂ (· < ·) index target) :
    List.Forall₂ (· < ·) (sourceIndex shape index) shape := by
  have hle := h.length_le
  have hcount := hindex.length_eq
  have hshape := List.forall₂_drop (target.length - shape.length) h
  have hlast := List.forall₂_drop (target.length - shape.length) hindex
  rw [padded, List.drop_left' List.length_replicate] at hshape
  rw [sourceIndex, hcount]
  generalize target.drop (target.length - shape.length) = later at hshape hlast
  generalize index.drop (target.length - shape.length) = own at hlast
  clear h hindex hle hcount
  induction hshape generalizing own with
  | nil => exact .nil
  | @cons extent wanted extents rest hextent _ ih =>
    cases hlast with
    | @cons m _ own _ hm hrest =>
      have hfirst : (if extent = 1 then 0 else m) < extent := by
        by_cases hone : extent = 1
        · rw [if_pos hone]
          exact hpos extent (by simp)
        · rw [if_neg hone, hextent.resolve_left hone]
          exact hm
      exact .cons hfirst (ih (fun other hmem ↦ hpos other (List.mem_cons_of_mem extent hmem))
        own hrest)

end Layout

end ComputeArray
