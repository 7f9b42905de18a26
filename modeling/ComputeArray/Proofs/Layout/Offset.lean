import ComputeArray.Proofs.Layout.Lasting

/-!
# Offsets of indices

A full index is accepted if its components lie within the extents, counted from the start or from
the end of their axes (`Layout.Locates`), and leads to the dot product of the strides and its
places. The places of a contiguous array are numbered row by row, each number once
(`index_offsetAt`).
-/

set_option autoImplicit false

namespace ComputeArray

namespace Layout

open Shape

variable {index : List Value} {shape strides places others : List Nat} {axis : Nat}
  {start result : Int}

/-! ### Components -/

/-- The place a component means on its axis: it counts from the start, or from the end if it is
negative. -/
def Component (value : Value) (extent place : Nat) : Prop :=
  ∃ i, value.toIndex = .ok i ∧ -(extent : Int) ≤ i ∧ i < extent ∧
    (place : Int) = if i < 0 then i + extent else i

/-- The places a full index means on the axes of a shape. -/
inductive Locates : List Value → List Nat → List Nat → Prop where
  | nil : Locates [] [] []
  | cons {value : Value} {extent place : Nat} {index : List Value} {shape places : List Nat}
      (first : Component value extent place) (rest : Locates index shape places) :
      Locates (value :: index) (extent :: shape) (place :: places)

namespace Locates

theorem length_eq (h : Locates index shape places) : index.length = shape.length := by
  induction h with
  | nil => rfl
  | cons _ _ ih => rw [List.length_cons, List.length_cons, ih]

/-- Places lie within the shape. -/
theorem within (h : Locates index shape places) : List.Forall₂ (· < ·) places shape := by
  induction h with
  | nil => exact .nil
  | cons first _ ih =>
    obtain ⟨i, -, hle, hlt, hplace⟩ := first
    refine .cons ?_ ih
    split at hplace <;> omega

/-- Places within a shape are their own index. -/
theorem of_within (h : List.Forall₂ (· < ·) places shape) :
    Locates (places.map fun place : Nat ↦ Value.int place) shape places := by
  induction h with
  | nil => exact .nil
  | @cons place extent _ _ hlt _ ih =>
    refine .cons ⟨place, rfl, by omega, by omega, ?_⟩ ih
    rw [if_neg (by omega)]

/-- There are places if every component lies within its axis. -/
theorem exists_iff : (∃ places, Locates index shape places) ↔
    List.Forall₂ (fun (value : Value) (extent : Nat) ↦
      ∃ i, value.toIndex = .ok i ∧ -(extent : Int) ≤ i ∧ i < extent) index shape := by
  constructor
  · rintro ⟨places, h⟩
    induction h with
    | nil => exact .nil
    | cons first _ ih =>
      obtain ⟨i, hindex, hle, hlt, -⟩ := first
      exact .cons ⟨i, hindex, hle, hlt⟩ ih
  · intro h
    induction h with
    | nil => exact ⟨[], .nil⟩
    | @cons value extent _ _ first _ ih =>
      obtain ⟨i, hindex, hle, hlt⟩ := first
      obtain ⟨places, hrest⟩ := ih
      refine ⟨(if i < 0 then i + extent else i).toNat :: places,
        .cons ⟨i, hindex, hle, hlt, ?_⟩ hrest⟩
      split <;> omega

end Locates

/-! ### The offset -/

theorem offsetFrom_cons {value : Value} {extent stride : Nat} {i : Int}
    (hindex : value.toIndex = .ok i) :
    offsetFrom axis start (value :: index) (extent :: shape) (stride :: strides) =
      if 0 ≤ (if i < 0 then i + (extent : Int) else i) ∧
          (if i < 0 then i + (extent : Int) else i) < extent then
        offsetFrom (axis + 1) (start + (if i < 0 then i + (extent : Int) else i) * stride) index
          shape strides
      else .error (.indexOutOfBounds value.inSentence axis extent) := by
  rw [offsetFrom, hindex]
  rfl

/-- The walk along the axes adds up the strides times the places. -/
theorem offsetFrom_of_locates (h : Locates index shape places)
    (hstrides : strides.length = shape.length) :
    offsetFrom axis start index shape strides = .ok (start + offsetAt strides places) := by
  induction h generalizing strides axis start with
  | nil =>
    rw [List.length_nil, List.length_eq_zero_iff] at hstrides
    subst hstrides
    exact congrArg Except.ok (Int.add_zero start).symm
  | @cons value extent place _ _ places first _ ih =>
    cases strides with
    | nil => cases hstrides
    | cons stride strides =>
      obtain ⟨i, hindex, hle, hlt, hplace⟩ := first
      have hinside : 0 ≤ (if i < 0 then i + (extent : Int) else i) ∧
          (if i < 0 then i + (extent : Int) else i) < extent := by
        split <;> omega
      rw [offsetFrom_cons hindex, if_pos hinside, ih (Nat.succ.inj hstrides), ← hplace,
        offsetAt_cons, Int.natCast_add, Int.natCast_mul, Int.mul_comm stride, Int.add_assoc]

/-- The walk only ends if all components lie within their axes. -/
theorem exists_locates_of_offsetFrom (hlength : index.length = shape.length)
    (hstrides : strides.length = shape.length)
    (h : offsetFrom axis start index shape strides = .ok result) :
    ∃ places, Locates index shape places := by
  rw [Locates.exists_iff]
  induction index generalizing shape strides axis start with
  | nil =>
    obtain rfl : shape = [] := List.length_eq_zero_iff.mp hlength.symm
    exact .nil
  | cons value index ih =>
    cases shape with
    | nil => cases hlength
    | cons extent shape =>
      cases strides with
      | nil => cases hstrides
      | cons stride strides =>
        obtain ⟨i, hindex, -⟩ := bind_eq_ok.mp h
        rw [offsetFrom_cons hindex] at h
        by_cases hinside : 0 ≤ (if i < 0 then i + (extent : Int) else i) ∧
            (if i < 0 then i + (extent : Int) else i) < extent
        · rw [if_pos hinside] at h
          refine .cons ⟨i, hindex, ?_⟩ (ih (Nat.succ.inj hlength) (Nat.succ.inj hstrides) h)
          split at hinside <;> omega
        · rw [if_neg hinside] at h
          cases h

/-- The offset of a full index whose components lie within their axes. -/
theorem offset_eq_ok_iff (hstrides : strides.length = shape.length) :
    offset index shape strides = .ok result ↔
      ∃ places, Locates index shape places ∧ result = offsetAt strides places := by
  have hwalk (hlength : index.length = shape.length) :
      offset index shape strides = offsetFrom 0 0 index shape strides := by
    unfold offset
    rw [if_neg (by omega), if_neg (by omega)]
  constructor
  · intro h
    have hlength : index.length = shape.length := by
      unfold offset at h
      rcases Nat.lt_trichotomy shape.length index.length with hlt | heq | hlt
      · rw [if_pos hlt] at h
        cases h
      · exact heq.symm
      · rw [if_neg (by omega), if_pos hlt] at h
        cases h
    rw [hwalk hlength] at h
    obtain ⟨places, hlocates⟩ := exists_locates_of_offsetFrom hlength hstrides h
    rw [offsetFrom_of_locates hlocates hstrides, Int.zero_add] at h
    exact ⟨places, hlocates, (Except.ok.inj h).symm⟩
  · rintro ⟨places, hlocates, rfl⟩
    rw [hwalk hlocates.length_eq, offsetFrom_of_locates hlocates hstrides, Int.zero_add]

/-! ### Row-major numbers -/

/-- Places are the index of their number. -/
theorem index_offsetAt (h : List.Forall₂ (· < ·) places shape) :
    Shape.index shape (offsetAt (steps shape) places) = places := by
  induction h with
  | nil => rfl
  | @cons place extent places rest hplace hrest ih =>
    have hlt := offsetAt_steps_lt hrest
    have hpos : 0 < volume rest := Nat.lt_of_le_of_lt (Nat.zero_le _) hlt
    rw [steps, offsetAt_cons, Shape.index, Nat.mul_add_div hpos, Nat.div_eq_of_lt hlt,
      Nat.mul_add_mod, Nat.mod_eq_of_lt hlt, ih, Nat.add_zero]

/-- All indices within a shape, row by row. -/
def indices (shape : List Nat) : List (List Nat) :=
  (List.range (volume shape)).map (Shape.index shape)

theorem mem_indices (hpos : ∀ extent ∈ shape, 0 < extent) :
    places ∈ indices shape ↔ List.Forall₂ (· < ·) places shape := by
  rw [indices, List.mem_map]
  constructor
  · rintro ⟨i, hi, rfl⟩
    exact index_lt hpos (List.mem_range.mp hi)
  · exact fun h ↦ ⟨_, List.mem_range.mpr (offsetAt_steps_lt h), index_offsetAt h⟩

/-- Numbers below a product, row by row. -/
theorem range_mul (rows columns : Nat) :
    List.range (rows * columns) =
      (List.range rows).flatMap fun i ↦ (List.range columns).map (i * columns + ·) := by
  induction rows with
  | zero => rw [Nat.zero_mul]; rfl
  | succ rows ih =>
    rw [Nat.succ_mul, List.range_add, ih, List.range_succ, List.flatMap_append,
      List.flatMap_singleton]

theorem indices_cons (extent : Nat) (rest : List Nat) :
    indices (extent :: rest) =
      (List.range extent).flatMap fun i ↦ (indices rest).map (i :: ·) := by
  rw [indices, volume_cons, range_mul, List.map_flatMap]
  refine List.flatMap_congr fun i _ ↦ ?_
  rw [indices, List.map_map, List.map_map]
  refine List.map_congr_left fun k hk ↦ ?_
  have hlt := List.mem_range.mp hk
  rw [Function.comp_apply, Function.comp_apply, Shape.index, Nat.mul_comm i,
    Nat.mul_add_div (Nat.zero_lt_of_lt hlt), Nat.div_eq_of_lt hlt, Nat.add_zero,
    Nat.mul_add_mod, Nat.mod_eq_of_lt hlt]

/-- The offsets of the indices in turn. -/
theorem offsets_eq (hlength : strides.length = shape.length) :
    offsets shape strides = (indices shape).map (offsetAt strides) := by
  induction shape generalizing strides with
  | nil =>
    obtain rfl : strides = [] := List.length_eq_zero_iff.mp hlength
    rfl
  | cons extent rest ih =>
    cases strides with
    | nil => cases hlength
    | cons stride strides =>
      rw [offsets, ih (Nat.succ.inj hlength), indices_cons, List.map_flatMap]
      refine List.flatMap_congr fun i _ ↦ ?_
      rw [List.map_map, List.map_map]
      refine List.map_congr_left fun places _ ↦ ?_
      rw [Function.comp_apply, Function.comp_apply, offsetAt_cons, Nat.mul_comm]

theorem offsets_steps (hpos : ∀ extent ∈ shape, 0 < extent) :
    offsets shape (steps shape) = List.range (volume shape) := by
  rw [offsets_eq (length_steps shape), indices, List.map_map]
  refine (List.map_congr_left fun i hi ↦ ?_).trans (List.map_id' _)
  exact offsetAt_steps_index hpos (List.mem_range.mp hi)

end Layout

/-! ### Arrays -/

/-- Hosts grant no more than so much storage. -/
theorem le_hostLimit_of_storageBytes {element : ElementType} {count : Int} {size : Nat}
    (h : storageBytes element count = .ok size) : size ≤ hostLimit := by
  have hgrant {shape : List Nat} (h : element.hostBytes shape = .ok size) : size ≤ hostLimit := by
    obtain ⟨bytes, -, h⟩ := bind_eq_ok.mp h
    obtain ⟨granted, hgranted, h⟩ := bind_eq_ok.mp h
    cases h
    unfold ElementType.grant at hgranted
    split at hgranted
    · cases hgranted
    · omega
  unfold storageBytes at h
  rw [guarded_eq_ok] at h
  exact hgrant h.2

theorem Layout.holdsUnsigned_of_lt {n : Nat} (h : n < 2 ^ 63) :
    Word.holdsUnsigned 64 (n : Int) = true := by
  have hwords : twoTo 64 = 2 ^ 64 := rfl
  unfold Word.holdsUnsigned
  simp only [hwords, Bool.and_eq_true, decide_eq_true_eq]
  omega

namespace ArrayState

open Layout Shape

variable {array : ArrayState} {index : List Value} {places : List Nat} {position : Nat}

/-- All elements lie in the storage. -/
theorem Sound.le_storage (h : array.Sound) (hlt : position < array.size) :
    (position + 1) * array.element.size ≤ array.storage.size := by
  have hstored := h.stored
  obtain ⟨n, hn⟩ : ∃ n : Nat, array.count = n := ⟨array.count.toNat, by unfold size at hlt; omega⟩
  have hsize : array.size = n := by rw [size, hn, Int.toNat_natCast]
  rw [hn] at hstored
  obtain ⟨hle, -⟩ := elements_of_storageBytes hstored
  exact Nat.le_trans (Nat.mul_le_mul_right _ (by omega)) (Nat.div_mul_le_self _ _)

theorem Sound.size_mul_le (h : array.Sound) :
    array.size * array.element.size ≤ array.storage.size := by
  rcases Nat.eq_zero_or_pos array.size with hzero | hpos
  · rw [hzero, Nat.zero_mul]
    exact Nat.zero_le _
  · have hle := h.le_storage (Nat.sub_one_lt_of_lt hpos)
    rwa [Nat.sub_one_add_one hpos.ne'] at hle

theorem Sound.size_lt (h : array.Sound) : array.size < 2 ^ 63 := by
  have hle := h.size_mul_le
  have hlimit := le_hostLimit_of_storageBytes h.stored
  have helement : 1 ≤ array.element.size := by cases array.element <;> decide
  have hmul := Nat.le_mul_of_pos_right array.size helement
  have hgranted : hostLimit = 2 ^ 37 := rfl
  omega

/-- An index whose components lie within the extents is accepted if there is an element. -/
theorem Sound.offset_of_locates (h : array.Sound) (hlocates : Locates index array.shape places)
    (hlt : offsetAt array.strides places < array.size) :
    array.offset index = .ok (offsetAt array.strides places) := by
  have hoffset := (Layout.offset_eq_ok_iff h.laid.lengths).mpr ⟨places, hlocates, rfl⟩
  have hword := Nat.lt_trans hlt h.size_lt
  have hinside : ¬ (array.size : Int) ≤ (offsetAt array.strides places : Nat) := by omega
  refine bind_eq_ok.mpr ⟨_, hoffset, ?_⟩
  rw [holdsUnsigned_of_lt hword, holdsSigned_iff.mpr hword]
  exact (if_neg hinside).trans rfl

/-- No other index is accepted. -/
theorem WellLaid.exists_locates (h : array.WellLaid) (hoffset : array.offset index = .ok position) :
    ∃ places, Locates index array.shape places ∧ position = offsetAt array.strides places := by
  obtain ⟨found, hfound, hchecked⟩ := bind_eq_ok.mp hoffset
  obtain ⟨places, hlocates, rfl⟩ := (Layout.offset_eq_ok_iff h.lengths).mp hfound
  obtain ⟨-, hchecked⟩ := guarded_eq_ok.mp hchecked
  obtain ⟨-, hchecked⟩ := guarded_eq_ok.mp hchecked
  obtain ⟨-, hposition⟩ := guarded_eq_ok.mp hchecked
  exact ⟨places, hlocates, (Except.ok.inj hposition).symm⟩

end ArrayState

end ComputeArray
