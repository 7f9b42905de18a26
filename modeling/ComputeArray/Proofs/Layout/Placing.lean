import ComputeArray.Proofs.Element.Bits
import ComputeArray.Proofs.Layout.Order
import ComputeArray.Proofs.Layout.Reshape
import ComputeArray.Proofs.Memory.Words
import Mathlib.Data.List.Nodup
import Mathlib.Data.List.Perm.Subperm

/-!
# Elements in their places

An index leads to one of the host elements, and the last index leads to the last of them
(`ArrayState.WellLaid.offsetAt_lt`, `ArrayState.WellLaid.size_eq`). Values that replace all logical
elements are stored along the axes with smaller strides first, and of those that lead to one element
the last one stays (`ArrayState.WellLaid.bits_of_last`). Where no two indices lead to the same
element, the values are read back in order (`ArrayState.Sound.viewElements_placed`).
-/

set_option autoImplicit false

namespace ComputeArray

/-! ### Elements of storage -/

namespace Bytes

variable {bytes : Bytes} {width position n : Nat}

theorem putElements_append (bytes : Bytes) (width : Nat) (first last : List (Nat × Nat)) :
    bytes.putElements width (first ++ last) =
      (bytes.putElements width first).putElements width last := by
  induction first generalizing bytes with
  | nil => rfl
  | cons item rest ih => exact ih _

/-- Of the elements that are written at a position, the last one stays. -/
theorem element_putElements_last {before after : List (Nat × Nat)}
    (hsize : (position + 1) * width ≤ bytes.size) (hn : n < 256 ^ width)
    (hlast : position ∉ after.map Prod.fst) :
    (bytes.putElements width (before ++ (position, n) :: after)).element width position = n := by
  rw [putElements_append, putElements, element_putElements_of_not_mem hlast,
    element_putElement_self (by rwa [size_putElements]) hn]

/-- One value fills all elements. -/
theorem element_fill {count : Nat} (hsize : count * width ≤ bytes.size) (hn : n < 256 ^ width)
    (hposition : position < count) : (bytes.fill width n count).element width position = n := by
  induction count with
  | zero => cases hposition
  | succ count ih =>
    have hle : count * width ≤ bytes.size :=
      Nat.le_trans (Nat.mul_le_mul_right _ (Nat.le_succ count)) hsize
    have hstep : bytes.fill width n (count + 1) =
        (bytes.fill width n count).putElement width count n :=
      Nat.fold_succ ..
    rw [hstep]
    by_cases hcount : position = count
    · subst hcount
      exact element_putElement_self (by rwa [size_fill]) hn
    · rw [element_putElement_of_ne hcount]
      exact ih hle (by omega)

end Bytes

/-! ### Host elements -/

namespace Layout

open Shape

variable {shape strides : List Nat}

/-- The last index leads to the last element that strides span. -/
theorem spannedCount_eq (hlength : strides.length = shape.length)
    (hpos : ∀ extent ∈ shape, 0 < extent) :
    spannedCount (shape.map Int.ofNat) (strides.map Int.ofNat) =
      ((offsetAt strides (shape.map (· - 1)) + 1 : Nat) : Int) := by
  have hsum : (((shape.map Int.ofNat).zip (strides.map Int.ofNat)).map
      fun pair ↦ (pair.1 - 1) * pair.2).foldr (· + ·) 0 =
        (offsetAt strides (shape.map (· - 1)) : Int) := by
    induction shape generalizing strides with
    | nil =>
      obtain rfl : strides = [] := List.length_eq_zero_iff.mp hlength
      rfl
    | cons extent rest ih =>
      cases strides with
      | nil => cases hlength
      | cons stride strides =>
        obtain ⟨hextent, hrest⟩ := List.forall_mem_cons.mp hpos
        have hfirst : ((extent : Int) - 1) * (stride : Int) =
            ((stride * (extent - 1) : Nat) : Int) := by
          rw [Nat.mul_comm, Int.natCast_mul, Int.natCast_sub hextent, Int.natCast_one]
        have hlater := ih (Nat.succ.inj hlength) hrest
        simp only [List.map_cons, List.zip_cons_cons, List.foldr_cons, offsetAt_cons]
        rw [hlater, Int.natCast_add]
        exact congrArg (· + _) hfirst
  rw [spannedCount, foldl_add, Int.zero_add, hsum, Int.natCast_add, Int.natCast_one]

theorem offsetAt_steps_pred (hpos : ∀ extent ∈ shape, 0 < extent) :
    offsetAt (steps shape) (shape.map (· - 1)) + 1 = volume shape := by
  induction shape with
  | nil => rfl
  | cons extent rest ih =>
    obtain ⟨hextent, hrest⟩ := List.forall_mem_cons.mp hpos
    obtain ⟨k, rfl⟩ := Nat.exists_eq_add_of_le' hextent
    rw [steps, List.map_cons, offsetAt_cons, Nat.add_assoc, ih hrest, volume_cons,
      Nat.add_sub_cancel, Nat.succ_mul, Nat.mul_comm]

end Layout

namespace ArrayState

open Layout Shape

variable {array : ArrayState} {places : List Nat} {values : List Nat} {position : Nat}

/-- The bits of a host element. -/
def bits (array : ArrayState) (position : Nat) : Nat :=
  array.storage.element array.element.size position

/-- The number of elements is what the last index leads to, and one more. -/
theorem WellLaid.size_eq (h : array.WellLaid) (hvolume : volume array.shape < 2 ^ 63) :
    array.size = offsetAt array.strides (array.shape.map (· - 1)) + 1 := by
  cases hcustom : array.customStrides with
  | false =>
    rw [(h.size_eq_iff hcustom).mpr hvolume, h.strides hcustom, offsetAt_steps_pred h.positive]
  | true =>
    have hcount := h.count
    rw [if_pos hcustom] at hcount
    rw [size, ← Except.ok.inj hcount]
    exact congrArg Int.toNat (spannedCount_eq h.lengths h.positive)

/-- Each index leads to an element. -/
theorem WellLaid.offsetAt_lt (h : array.WellLaid) (hvolume : volume array.shape < 2 ^ 63)
    (hplaces : List.Forall₂ (· < ·) places array.shape) :
    offsetAt array.strides places < array.size := by
  have hspanned := offsetAt_lt_spannedCount hplaces h.lengths
  rw [spannedCount_eq h.lengths h.positive] at hspanned
  rw [h.size_eq hvolume]
  omega

/-- The last index lies within the shape. -/
theorem WellLaid.last_within (h : array.WellLaid) :
    List.Forall₂ (· < ·) (array.shape.map (· - 1)) array.shape := by
  rw [List.forall₂_map_left_iff, List.forall₂_same]
  exact fun extent hmem ↦ Nat.sub_one_lt_of_lt (h.positive extent hmem)

/-! ### The order of the values -/

/-- Of the places that lead to one element, these are the last when axes with smaller strides are
gone through first. -/
structure Last (array : ArrayState) (places : List Nat) : Prop where
  within : List.Forall₂ (· < ·) places array.shape
  last : ∀ others, List.Forall₂ (· < ·) others array.shape →
    offsetAt array.strides others = offsetAt array.strides places →
      ¬ arrange (axisOrder array.strides) places < arrange (axisOrder array.strides) others

/-- No two indices lead to the same element. -/
def Injective (array : ArrayState) : Prop :=
  ∀ places others, List.Forall₂ (· < ·) places array.shape →
    List.Forall₂ (· < ·) others array.shape →
      offsetAt array.strides places = offsetAt array.strides others → places = others

/-- Where no two indices lead to the same element, all of them are last. -/
theorem Injective.last (h : array.Injective) (hplaces : List.Forall₂ (· < ·) places array.shape) :
    array.Last places :=
  ⟨hplaces, fun others hothers hsame ↦ h others places hothers hplaces hsame ▸ List.lt_irrefl _⟩

section Order

variable (h : array.WellLaid)
include h

theorem WellLaid.order_perm :
    (axisOrder array.strides).Perm (List.range array.shape.length) :=
  h.lengths ▸ axisOrder_perm array.strides

theorem WellLaid.mem_indices_iff {row : List Nat} :
    row ∈ indices (arrange (axisOrder array.strides) array.shape) ↔
      ∃ places, List.Forall₂ (· < ·) places array.shape ∧
        arrange (axisOrder array.strides) places = row := by
  have hpositive : ∀ extent ∈ arrange (axisOrder array.strides) array.shape, 0 < extent := by
    intro extent hmem
    obtain ⟨axis, haxis, rfl⟩ := List.mem_map.mp hmem
    have hlt := List.mem_range.mp (h.order_perm.mem_iff.mp haxis)
    rw [List.getD_eq_getElem _ _ hlt]
    exact h.positive _ (List.getElem_mem hlt)
  rw [mem_indices hpositive]
  constructor
  · intro hwithin
    have hlength : row.length = array.shape.length := by
      rw [hwithin.length_eq, length_arrange, h.order_perm.length_eq, List.length_range]
    obtain ⟨places, hplaces, rfl⟩ := exists_arrange h.order_perm hlength
    exact ⟨places, (forall₂_arrange_iff h.order_perm hplaces rfl).mp hwithin, rfl⟩
  · rintro ⟨places, hplaces, rfl⟩
    exact (forall₂_arrange_iff h.order_perm hplaces.length_eq rfl).mpr hplaces

/-- The offset of places is that of their arrangement, in any layout of the shape. -/
theorem WellLaid.offsetAt_arrange {strides : List Nat}
    (hstrides : strides.length = array.shape.length)
    (hplaces : List.Forall₂ (· < ·) places array.shape) :
    offsetAt (arrange (axisOrder array.strides) strides)
      (arrange (axisOrder array.strides) places) = offsetAt strides places :=
  Layout.offsetAt_arrange h.order_perm hstrides hplaces.length_eq

/-- Of the places that lead to an element, some are last. -/
theorem WellLaid.exists_last (hplaces : List.Forall₂ (· < ·) places array.shape) :
    ∃ last, array.Last last ∧ offsetAt array.strides last = offsetAt array.strides places := by
  -- The rows that lead there ascend, so that the last of them is the greatest.
  obtain ⟨rows, hrows⟩ : ∃ rows, (indices (arrange (axisOrder array.strides) array.shape)).filter
      (fun row ↦ offsetAt (arrange (axisOrder array.strides) array.strides) row =
        offsetAt array.strides places) = rows := ⟨_, rfl⟩
  have hmem (row : List Nat) : row ∈ rows ↔ ∃ others, List.Forall₂ (· < ·) others array.shape ∧
      arrange (axisOrder array.strides) others = row ∧
        offsetAt array.strides others = offsetAt array.strides places := by
    rw [← hrows, List.mem_filter, h.mem_indices_iff, decide_eq_true_eq]
    constructor
    · rintro ⟨⟨others, hothers, rfl⟩, hsame⟩
      exact ⟨others, hothers, rfl, (h.offsetAt_arrange h.lengths hothers).symm.trans hsame⟩
    · rintro ⟨others, hothers, rfl, hsame⟩
      exact ⟨⟨others, hothers, rfl⟩, (h.offsetAt_arrange h.lengths hothers).trans hsame⟩
  have hascending : rows.Pairwise (· < ·) := hrows ▸ (pairwise_indices _).filter _
  rcases List.eq_nil_or_concat rows with rfl | ⟨before, last, rfl⟩
  · cases (hmem _).mpr ⟨places, hplaces, rfl, rfl⟩
  · rw [List.concat_eq_append] at hmem hascending
    obtain ⟨found, hfound, rfl, hsame⟩ := (hmem last).mp (by simp)
    refine ⟨found, ⟨hfound, fun others hothers hother hlt ↦ ?_⟩, hsame⟩
    have hrow := (hmem _).mpr ⟨others, hothers, rfl, hother.trans hsame⟩
    rcases List.mem_append.mp hrow with hbefore | hlast
    · have hgt := (List.pairwise_append.mp hascending).2.2 _ hbefore _ (List.mem_singleton_self _)
      exact List.lt_asymm hlt hgt
    · rw [List.mem_singleton.mp hlast] at hlt
      exact List.lt_irrefl _ hlt

/-! ### Storing all values -/

theorem WellLaid.placed_eq (values : List Nat) :
    array.placed values = (indices (arrange (axisOrder array.strides) array.shape)).map fun row ↦
      (offsetAt (arrange (axisOrder array.strides) array.strides) row,
        values.getD (offsetAt (arrange (axisOrder array.strides) (steps array.shape)) row) 0) := by
  unfold placed
  dsimp only
  rw [shapeInts, contiguous_toNat, offsetPairs_eq h.lengths (length_steps _), List.map_map]
  refine List.map_congr_left fun row _ ↦ ?_
  simp [List.getD_eq_getElem?_getD]

/-- The value of the last places stays. -/
theorem WellLaid.bits_of_last (hlast : array.Last places)
    (hvalues : values.length = volume array.shape)
    (hbits : ∀ bits ∈ values, bits < 256 ^ array.element.size)
    (hroom : (offsetAt array.strides places + 1) * array.element.size ≤ array.storage.size) :
    values[offsetAt (steps array.shape) places]? =
      some ((array.store (array.placed values)).bits (offsetAt array.strides places)) := by
  have hnumber : offsetAt (steps array.shape) places < values.length :=
    hvalues ▸ offsetAt_steps_lt hlast.within
  obtain ⟨before, after, hsplit⟩ :=
    List.append_of_mem (h.mem_indices_iff.mpr ⟨places, hlast.within, rfl⟩)
  have hascending := pairwise_indices (arrange (axisOrder array.strides) array.shape)
  rw [hsplit] at hascending
  have hafter : offsetAt array.strides places ∉ (after.map fun row ↦
      (offsetAt (arrange (axisOrder array.strides) array.strides) row, values.getD (offsetAt
        (arrange (axisOrder array.strides) (steps array.shape)) row) 0)).map Prod.fst := by
    rw [List.map_map]
    intro hmem
    obtain ⟨row, hrow, hsame⟩ := List.mem_map.mp hmem
    obtain ⟨others, hothers, rfl⟩ := h.mem_indices_iff.mp
      (hsplit ▸ List.mem_append_right _ (List.mem_cons_of_mem _ hrow))
    have hgt := (List.pairwise_cons.mp (List.pairwise_append.mp hascending).2.1).1 _ hrow
    exact hlast.last others hothers ((h.offsetAt_arrange h.lengths hothers).symm.trans hsame) hgt
  rw [List.getElem?_eq_getElem hnumber, bits, store, h.placed_eq, hsplit, List.map_append,
    List.map_cons, h.offsetAt_arrange h.lengths hlast.within,
    h.offsetAt_arrange (length_steps _) hlast.within, List.getD_eq_getElem _ _ hnumber]
  exact congrArg some (Bytes.element_putElements_last hroom (hbits _ (List.getElem_mem hnumber))
    hafter).symm

/-- An element no index leads to stays as it is. -/
theorem WellLaid.bits_of_unreached
    (hnone : ∀ places, List.Forall₂ (· < ·) places array.shape →
      offsetAt array.strides places ≠ position) :
    (array.store (array.placed values)).bits position = array.bits position := by
  refine Bytes.element_putElements_of_not_mem fun hmem ↦ ?_
  rw [h.placed_eq, List.map_map] at hmem
  obtain ⟨row, hrow, hsame⟩ := List.mem_map.mp hmem
  obtain ⟨places, hplaces, rfl⟩ := h.mem_indices_iff.mp hrow
  exact hnone places hplaces ((h.offsetAt_arrange h.lengths hplaces).symm.trans hsame)

end Order

/-! ### Tables of the elements -/

/-- The logical elements make a table: it has no more axes than tables may have, and machine words
count its bytes and the bytes of its strides. -/
structure Tabular (array : ArrayState) : Prop where
  axes : array.shape.length ≤ axisLimit
  bytes : array.element.size * volume array.shape < 2 ^ 63
  strides : ∀ stride ∈ array.strides, stride * array.element.size < 2 ^ 63

section Tables

variable (hpositive : ∀ extent ∈ array.shape, 0 < extent) (hvolume : volume array.shape < 2 ^ 63)
include hpositive hvolume

theorem checkView_eq_ok_iff : array.checkView = .ok ⟨⟩ ↔ array.Tabular := by
  have hextents : array.shape.all (fun extent : Nat ↦ Word.holdsSigned 64 extent) = true :=
    List.all_eq_true.mpr fun extent hmem ↦
      holdsSigned_iff.mpr (Nat.lt_of_le_of_lt (le_volume hpositive hmem) hvolume)
  unfold checkView
  dsimp only
  rw [guarded_eq_ok, guarded_eq_ok, guarded_eq_ok, guard_eq_ok, hextents]
  simp only [Bool.not_eq_true', Bool.not_eq_false, holdsSigned_iff, List.all_eq_true, not_lt,
    Bool.not_true, Bool.false_eq_true, not_false_eq_true, true_and]
  exact ⟨fun ⟨haxes, hbytes, hstrides⟩ ↦ ⟨haxes, hbytes, hstrides⟩,
    fun ⟨haxes, hbytes, hstrides⟩ ↦ ⟨haxes, hbytes, hstrides⟩⟩

/-- Values replace the logical elements if there are as many of them and they make a table. -/
theorem checkValues_eq_ok_iff :
    array.checkValues values = .ok ⟨⟩ ↔ values.length = volume array.shape ∧ array.Tabular := by
  have hlength : array.length = .ok (volume array.shape : Int) :=
    contiguousCount_eq hpositive hvolume
  have hextents : array.shape.any (fun extent : Nat ↦ !Word.holdsSigned 64 extent) = false := by
    refine List.any_eq_false.mpr fun extent hmem ↦ ?_
    rw [holdsSigned_iff.mpr (Nat.lt_of_le_of_lt (le_volume hpositive hmem) hvolume)]
    decide
  have hreshape : array.checkReshape values.length = .ok ⟨⟩ ↔
      array.shape.length ≤ axisLimit ∧ values.length = volume array.shape := by
    unfold checkReshape
    dsimp only
    rw [guarded_eq_ok, guarded_eq_ok, guard_eq_ok, hextents]
    simp only [not_lt, Bool.false_eq_true, not_false_eq_true, true_and, ne_eq, not_not]
  unfold checkValues
  rw [bind_eq_ok]
  simp only [hlength, Except.ok.injEq, exists_eq_left']
  rw [guarded_eq_ok, bind_eq_ok]
  simp only [exists_const, hreshape, checkView_eq_ok_iff hpositive hvolume, ne_eq, not_not,
    Int.natCast_inj]
  exact ⟨fun ⟨hcount, _, htabular⟩ ↦ ⟨hcount, htabular⟩,
    fun ⟨hcount, htabular⟩ ↦ ⟨hcount, ⟨htabular.axes, hcount⟩, htabular⟩⟩

/-- The elements are read off row by row, if they make a table and the host has room for it. -/
theorem viewElements_eq (hlengths : array.strides.length = array.shape.length)
    (htabular : array.Tabular) (hroom : array.element.size * volume array.shape ≤ hostLimit) :
    array.viewElements = .ok ((List.range (volume array.shape)).map fun k ↦
      array.bits (offsetAt array.strides (Shape.index array.shape k))) := by
  have hgrant :
      array.element.grant array.shape (array.element.size * volume array.shape) = .ok ⟨⟩ :=
    if_neg (Nat.not_lt.mpr hroom)
  refine bind_eq_ok.mpr ⟨⟨⟩, (checkView_eq_ok_iff hpositive hvolume).mpr htabular,
    bind_eq_ok.mpr ⟨⟨⟩, hgrant, ?_⟩⟩
  rw [offsets_eq hlengths, indices, List.map_map, List.map_map]
  rfl

end Tables

/-- Where no two indices lead to the same element, there are as many elements as indices. -/
theorem WellLaid.volume_le_size (h : array.WellLaid) (hvolume : volume array.shape < 2 ^ 63)
    (hinjective : array.Injective) : volume array.shape ≤ array.size := by
  have hwithin {k : Nat} (hk : k < volume array.shape) := index_lt h.positive hk
  have hnodup : ((List.range (volume array.shape)).map fun k ↦
      offsetAt array.strides (Shape.index array.shape k)).Nodup := by
    refine List.Nodup.map_on (fun i hi j hj hsame ↦ ?_) List.nodup_range
    have hi := List.mem_range.mp hi
    have hj := List.mem_range.mp hj
    have hplaces := hinjective _ _ (hwithin hi) (hwithin hj) hsame
    rw [← offsetAt_steps_index h.positive hi, hplaces, offsetAt_steps_index h.positive hj]
  have hsubset : ((List.range (volume array.shape)).map fun k ↦
      offsetAt array.strides (Shape.index array.shape k)) ⊆ List.range array.size := by
    intro position hmem
    obtain ⟨k, hk, rfl⟩ := List.mem_map.mp hmem
    exact List.mem_range.mpr (h.offsetAt_lt hvolume (hwithin (List.mem_range.mp hk)))
  have hle := (List.subperm_of_subset hnodup hsubset).length_le
  rwa [List.length_map, List.length_range, List.length_range] at hle

/-! ### Updates -/

section Updates

variable {index : List Value} {value : Value} {updated : ArrayState}

/-- An index is accepted if its components lie within the extents. -/
theorem Sound.offset_eq_ok_iff (h : array.Sound) (hvolume : volume array.shape < 2 ^ 63) :
    array.offset index = .ok position ↔
      ∃ places, Locates index array.shape places ∧ position = offsetAt array.strides places := by
  refine ⟨h.laid.exists_locates, ?_⟩
  rintro ⟨places, hlocates, rfl⟩
  exact h.offset_of_locates hlocates (h.laid.offsetAt_lt hvolume hlocates.within)

theorem Sound.setAt_eq_ok_iff (h : array.Sound) (hvolume : volume array.shape < 2 ^ 63) :
    array.setAt index value = .ok updated ↔ ∃ places bits, Locates index array.shape places ∧
      array.element.store value = .ok bits ∧
        updated = array.store [(offsetAt array.strides places, bits)] := by
  unfold setAt
  rw [bind_eq_ok]
  constructor
  · rintro ⟨position, hoffset, hset⟩
    obtain ⟨bits, hbits, hset⟩ := bind_eq_ok.mp hset
    obtain ⟨places, hlocates, rfl⟩ := (h.offset_eq_ok_iff hvolume).mp hoffset
    exact ⟨places, bits, hlocates, hbits, (Except.ok.inj hset).symm⟩
  · rintro ⟨places, bits, hlocates, hbits, rfl⟩
    exact ⟨_, (h.offset_eq_ok_iff hvolume).mpr ⟨places, hlocates, rfl⟩,
      bind_eq_ok.mpr ⟨bits, hbits, rfl⟩⟩

theorem WellLaid.setAll_eq_ok_iff (h : array.WellLaid) (hvolume : volume array.shape < 2 ^ 63) :
    array.setAll values = .ok updated ↔ values.length = volume array.shape ∧ array.Tabular ∧
      updated = array.store (array.placed values) := by
  unfold setAll
  rw [bind_eq_ok]
  constructor
  · rintro ⟨_, hchecked, hset⟩
    obtain ⟨hcount, htabular⟩ := (checkValues_eq_ok_iff h.positive hvolume).mp hchecked
    exact ⟨hcount, htabular, (Except.ok.inj hset).symm⟩
  · rintro ⟨hcount, htabular, rfl⟩
    exact ⟨⟨⟩, (checkValues_eq_ok_iff h.positive hvolume).mpr ⟨hcount, htabular⟩, rfl⟩

/-- The element at the place is given the value, and the others stay. -/
theorem Sound.bits_store (h : array.Sound) {bits : Nat}
    (hbits : array.element.store value = .ok bits)
    (hposition : position < array.size) :
    (array.store [(position, bits)]).bits position = bits ∧
      ∀ other, other ≠ position → (array.store [(position, bits)]).bits other = array.bits other :=
  ⟨Bytes.element_putElement_self (h.le_storage hposition) (ElementType.store_lt hbits),
    fun _ hother ↦ Bytes.element_putElement_of_ne hother⟩

/-- All elements are given the value. -/
theorem Sound.bits_fill (h : array.Sound) {bits : Nat}
    (hbits : array.element.store value = .ok bits)
    (hposition : position < array.size) :
    (array.storage.fill array.element.size bits array.size).element array.element.size position =
      bits :=
  Bytes.element_fill h.size_mul_le (ElementType.store_lt hbits) hposition

/-- Where no two indices lead to the same element, stored values are read back in order. -/
theorem Sound.viewElements_placed (h : array.Sound) (hvolume : volume array.shape < 2 ^ 63)
    (htabular : array.Tabular) (hinjective : array.Injective)
    (hvalues : values.length = volume array.shape)
    (hbits : ∀ bits ∈ values, bits < 256 ^ array.element.size) :
    (array.store (array.placed values)).viewElements = .ok values := by
  have hroom : array.element.size * volume array.shape ≤ hostLimit := by
    rw [Nat.mul_comm]
    exact Nat.le_trans (Nat.mul_le_mul_right _ (h.laid.volume_le_size hvolume hinjective))
      (Nat.le_trans h.size_mul_le (le_hostLimit_of_storageBytes h.stored))
  have hview : (array.store (array.placed values)).viewElements =
      .ok ((List.range (volume array.shape)).map fun k ↦ (array.store (array.placed values)).bits
        (offsetAt array.strides (Shape.index array.shape k))) :=
    viewElements_eq h.laid.positive hvolume h.laid.lengths
      ⟨htabular.axes, htabular.bytes, htabular.strides⟩ hroom
  rw [hview]
  refine congrArg Except.ok (List.ext_getElem? fun k ↦ ?_)
  rcases Nat.lt_or_ge k (volume array.shape) with hk | hk
  · have hwithin := index_lt h.laid.positive hk
    have hlt := h.laid.offsetAt_lt hvolume hwithin
    have hlast := h.laid.bits_of_last (hinjective.last hwithin) hvalues hbits (h.le_storage hlt)
    rw [offsetAt_steps_index h.laid.positive hk] at hlast
    rw [hlast, List.getElem?_map, List.getElem?_range hk]
    rfl
  · have hnone : values[k]? = none := List.getElem?_eq_none (hvalues.trans_le hk)
    rw [hnone, List.getElem?_eq_none]
    rwa [List.length_map, List.length_range]

end Updates

end ArrayState

end ComputeArray
