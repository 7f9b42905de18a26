import ComputeArray.Proofs.Layout.Offset

/-!
# Axes in the order of their strides

Elements are stored along the axes with smaller strides first (`axisOrder`). That is the order of
the rows of another layout, which has the same axes in another place (`arrange`): each index of it
leads to the same offset (`offsetPairs_eq`), and its indices ascend (`pairwise_indices`).
-/

set_option autoImplicit false

namespace ComputeArray.Layout

open Shape

variable {shape strides others places entries order : List Nat} {n : Nat}

/-! ### Arrangements of axes -/

/-- The axes, those with larger strides first; axes with the same stride stay in order. -/
def axisOrder (strides : List Nat) : List Nat :=
  (List.range strides.length).mergeSort fun a b ↦ strides.getD b 0 ≤ strides.getD a 0

/-- What belongs to the axes, in another order of them. -/
def arrange (order entries : List Nat) : List Nat := order.map fun axis ↦ entries.getD axis 0

theorem axisOrder_perm (strides : List Nat) :
    (axisOrder strides).Perm (List.range strides.length) :=
  List.mergeSort_perm _ _

@[simp] theorem length_arrange (order entries : List Nat) :
    (arrange order entries).length = order.length :=
  List.length_map _

/-- In their own order, entries stay where they are. -/
theorem arrange_range (entries : List Nat) :
    arrange (List.range entries.length) entries = entries := by
  refine List.ext_getElem (by simp) fun i hi hi' ↦ ?_
  simp [arrange, List.getD_eq_getElem?_getD, hi']

/-- An offset is the same sum whatever the order of the axes. -/
theorem offsetAt_arrange (horder : order.Perm (List.range n)) (hstrides : strides.length = n)
    (hplaces : places.length = n) :
    offsetAt (arrange order strides) (arrange order places) = offsetAt strides places := by
  have hsum (order : List Nat) : offsetAt (arrange order strides) (arrange order places) =
      (order.map fun axis ↦ strides.getD axis 0 * places.getD axis 0).sum := by
    rw [offsetAt, arrange, arrange, List.zipWith_map, List.zipWith_self]
  have hrange := hsum (List.range n)
  conv_lhs at hrange => rw [← hstrides, arrange_range, hstrides, ← hplaces, arrange_range]
  rw [hsum, (horder.map _).sum_eq, hrange]

/-- Places lie within a shape whatever the order of the axes. -/
theorem forall₂_arrange_iff (horder : order.Perm (List.range n)) (hplaces : places.length = n)
    (hshape : shape.length = n) :
    List.Forall₂ (· < ·) (arrange order places) (arrange order shape) ↔
      List.Forall₂ (· < ·) places shape := by
  have hall (order : List Nat) :
      List.Forall₂ (· < ·) (arrange order places) (arrange order shape) ↔
        ∀ axis ∈ order, places.getD axis 0 < shape.getD axis 0 := by
    rw [arrange, arrange, List.forall₂_map_left_iff, List.forall₂_map_right_iff, List.forall₂_same]
  have hrange := hall (List.range n)
  conv_lhs at hrange => rw [← hplaces, arrange_range, hplaces, ← hshape, arrange_range]
  rw [hall, hrange]
  exact forall_congr' fun axis ↦ imp_congr_left horder.mem_iff

/-- Whatever stands in the other order comes from somewhere. -/
theorem exists_arrange (horder : order.Perm (List.range n)) (hentries : entries.length = n) :
    ∃ places, places.length = n ∧ arrange order places = entries := by
  refine ⟨(List.range n).map fun axis ↦ entries.getD (order.idxOf axis) 0, by simp, ?_⟩
  have hnodup : order.Nodup := horder.nodup_iff.mpr List.nodup_range
  have hlength : order.length = n := by rw [horder.length_eq, List.length_range]
  refine List.ext_getElem (by rw [length_arrange, hlength, hentries]) fun k hk hk' ↦ ?_
  have hk : k < order.length := by rwa [length_arrange] at hk
  have haxis : order[k] < n := List.mem_range.mp (horder.mem_iff.mp (List.getElem_mem hk))
  simp [arrange, List.getD_eq_getElem?_getD, haxis, hnodup.idxOf_getElem, hk']

/-! ### Both layouts -/

/-- An axis of a layout beside another one. -/
def axisAt (shape strides others : List Nat) (axis : Nat) : Axis :=
  ⟨shape.getD axis 0, strides.getD axis 0, others.getD axis 0⟩

theorem axes_eq (hstrides : strides.length = shape.length)
    (hothers : others.length = shape.length) :
    axes shape strides others = (List.range shape.length).map (axisAt shape strides others) := by
  induction shape generalizing strides others with
  | nil => rfl
  | cons extent shape ih =>
    cases strides with
    | nil => cases hstrides
    | cons stride strides =>
      cases others with
      | nil => cases hothers
      | cons other others =>
        rw [axes, ih (Nat.succ.inj hstrides) (Nat.succ.inj hothers), List.length_cons,
          List.range_succ_eq_map, List.map_cons, List.map_map]
        rfl

/-- The axes are sorted as their numbers are. -/
theorem mergeSort_axes (hstrides : strides.length = shape.length)
    (hothers : others.length = shape.length) :
    ((axes shape strides others).mergeSort fun a b ↦ b.stride ≤ a.stride) =
      (axisOrder strides).map (axisAt shape strides others) := by
  rw [axes_eq hstrides hothers, axisOrder, ← hstrides]
  exact (List.map_mergeSort (f := axisAt shape strides others) fun _ _ _ _ ↦ rfl).symm

/-- The pairs of offsets are those of the indices of the arranged layouts. -/
theorem offsetPairs_eq (hstrides : strides.length = shape.length)
    (hothers : others.length = shape.length) :
    offsetPairs shape strides others = (indices (arrange (axisOrder strides) shape)).map
      fun places ↦ (offsetAt (arrange (axisOrder strides) strides) places,
        offsetAt (arrange (axisOrder strides) others) places) := by
  have hextents : ((axisOrder strides).map (axisAt shape strides others)).map Axis.extent =
      arrange (axisOrder strides) shape := List.map_map
  have hlarger : ((axisOrder strides).map (axisAt shape strides others)).map Axis.stride =
      arrange (axisOrder strides) strides := List.map_map
  have hother : ((axisOrder strides).map (axisAt shape strides others)).map Axis.other =
      arrange (axisOrder strides) others := List.map_map
  unfold offsetPairs
  rw [mergeSort_axes hstrides hothers]
  dsimp only
  rw [hextents, hlarger, hother, offsets_eq (by simp), offsets_eq (by simp), List.zip_map']

/-! ### Rows in order -/

/-- Indices are gone through in ascending order. -/
theorem pairwise_indices (shape : List Nat) : (indices shape).Pairwise (· < ·) := by
  induction shape with
  | nil => exact List.pairwise_singleton _ _
  | cons extent rest ih =>
    rw [indices_cons, List.pairwise_flatMap]
    refine ⟨fun i _ ↦ ?_, ?_⟩
    · rw [List.pairwise_map]
      exact ih.imp fun h ↦ List.cons_lt_cons_iff.mpr (.inr ⟨rfl, h⟩)
    · refine List.pairwise_lt_range.imp fun hlt first hfirst second hsecond ↦ ?_
      obtain ⟨_, -, rfl⟩ := List.mem_map.mp hfirst
      obtain ⟨_, -, rfl⟩ := List.mem_map.mp hsecond
      exact List.cons_lt_cons_iff.mpr (.inl hlt)

end ComputeArray.Layout
