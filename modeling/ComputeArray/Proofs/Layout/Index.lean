import ComputeArray.Layout
import Mathlib.Algebra.BigOperators.Group.List.Basic
import Mathlib.Algebra.Order.Ring.Nat

/-!
# Row-major indices

The number of an element in row-major order and its index determine each other: the index comes
from repeated division by the volumes of the later axes, which are the contiguous strides, and the
contiguous strides reach the number at the index (`offsetAt_steps_index`).
-/

set_option autoImplicit false

namespace ComputeArray

namespace Shape

variable {shape : List Nat}

@[simp] theorem volume_nil : volume [] = 1 := rfl

@[simp] theorem volume_cons (extent : Nat) (rest : List Nat) :
    volume (extent :: rest) = extent * volume rest :=
  rfl

theorem volume_pos (h : ∀ extent ∈ shape, 0 < extent) : 0 < volume shape := by
  induction shape with
  | nil => exact Nat.one_pos
  | cons extent rest ih =>
    have hrest := ih fun other hmem ↦ h other (List.mem_cons_of_mem extent hmem)
    exact Nat.mul_pos (h extent (by simp)) hrest

theorem volume_drop_dvd (shape : List Nat) (s : Nat) : volume (shape.drop s) ∣ volume shape := by
  induction shape generalizing s with
  | nil => simp
  | cons extent rest ih =>
    cases s with
    | zero => exact Nat.dvd_refl _
    | succ s => exact Nat.dvd_trans (ih s) (Nat.dvd_mul_left _ _)

theorem volume_drop_pos (h : ∀ extent ∈ shape, 0 < extent) (s : Nat) :
    0 < volume (shape.drop s) :=
  volume_pos fun extent hmem ↦ h extent (List.mem_of_mem_drop hmem)

/-- The index of an element by its number in row-major order. -/
def index : List Nat → Nat → List Nat
  | [], _ => []
  | _ :: rest, i => i / volume rest :: index rest (i % volume rest)

@[simp] theorem length_index (shape : List Nat) (i : Nat) :
    (index shape i).length = shape.length := by
  induction shape generalizing i with
  | nil => rfl
  | cons extent rest ih => rw [index, List.length_cons, List.length_cons, ih]

/-- From an axis on, an index is that of the remainder by the volume of the later axes. -/
theorem drop_index (h : ∀ extent ∈ shape, 0 < extent) {i : Nat} (hi : i < volume shape) (s : Nat) :
    (index shape i).drop s = index (shape.drop s) (i % volume (shape.drop s)) := by
  induction shape generalizing i s with
  | nil => simp [index]
  | cons extent rest ih =>
    cases s with
    | zero => rw [List.drop_zero, List.drop_zero, Nat.mod_eq_of_lt hi]
    | succ s =>
      have hrest : ∀ other ∈ rest, 0 < other :=
        fun other hmem ↦ h other (List.mem_cons_of_mem extent hmem)
      rw [index, List.drop_succ_cons, List.drop_succ_cons,
        ih hrest (Nat.mod_lt i (volume_pos hrest)),
        Nat.mod_mod_of_dvd i (volume_drop_dvd rest s)]

theorem getElem?_index (h : ∀ extent ∈ shape, 0 < extent) {i : Nat} (hi : i < volume shape)
    {s : Nat} (hs : s < shape.length) :
    (index shape i)[s]? =
      some (i % volume (shape.drop s) / volume (shape.drop (s + 1))) := by
  have hdrop := drop_index h hi s
  have hhead : (index shape i)[s]? = ((index shape i).drop s)[0]? := by
    rw [List.getElem?_drop, Nat.add_zero]
  rw [hhead, hdrop, List.drop_eq_getElem_cons hs]
  rfl

/-- The components of an index lie within the extents. -/
theorem index_lt (h : ∀ extent ∈ shape, 0 < extent) {i : Nat} (hi : i < volume shape) :
    List.Forall₂ (· < ·) (index shape i) shape := by
  induction shape generalizing i with
  | nil => exact .nil
  | cons extent rest ih =>
    have hrest : ∀ other ∈ rest, 0 < other :=
      fun other hmem ↦ h other (List.mem_cons_of_mem extent hmem)
    have hfirst : i / volume rest < extent :=
      Nat.div_lt_of_lt_mul (by rwa [Nat.mul_comm])
    exact .cons hfirst (ih hrest (Nat.mod_lt i (volume_pos hrest)))

/-- The contiguous row-major strides. -/
def steps : List Nat → List Nat
  | [] => []
  | _ :: rest => volume rest :: steps rest

@[simp] theorem length_steps (shape : List Nat) : (steps shape).length = shape.length := by
  induction shape with
  | nil => rfl
  | cons extent rest ih => rw [steps, List.length_cons, List.length_cons, ih]

theorem getElem?_steps {s : Nat} (hs : s < shape.length) :
    (steps shape)[s]? = some (volume (shape.drop (s + 1))) := by
  induction shape generalizing s with
  | nil => simp at hs
  | cons extent rest ih =>
    cases s with
    | zero => rfl
    | succ s => exact ih (Nat.lt_of_succ_lt_succ hs)

end Shape

namespace Layout

open Shape

theorem contiguousFrom_eq (shape : List Nat) :
    contiguousFrom (shape.map Int.ofNat) =
      ((steps shape).map Int.ofNat, (volume shape : Int)) := by
  induction shape with
  | nil => rfl
  | cons extent rest ih =>
    simp only [List.map_cons, contiguousFrom, ih, steps, volume_cons]
    refine Prod.ext rfl ?_
    change (volume rest : Int) * (extent : Int) = _
    push_cast
    exact Int.mul_comm _ _

theorem contiguous_eq (shape : List Nat) :
    contiguous (shape.map Int.ofNat) = (steps shape).map Int.ofNat := by
  rw [contiguous, contiguousFrom_eq]

/-- The offset that strides reach at an index. -/
def offsetAt (strides index : List Nat) : Nat := (List.zipWith (· * ·) strides index).sum

@[simp] theorem offsetAt_nil (index : List Nat) : offsetAt [] index = 0 := rfl

@[simp] theorem offsetAt_cons (stride m : Nat) (strides index : List Nat) :
    offsetAt (stride :: strides) (m :: index) = stride * m + offsetAt strides index := by
  simp [offsetAt]

/-- The contribution of an axis to the offset from it on. -/
theorem offsetAt_drop {strides index : List Nat} {s stride m : Nat}
    (hstride : strides[s]? = some stride) (hm : index[s]? = some m) :
    offsetAt (strides.drop s) (index.drop s) =
      stride * m + offsetAt (strides.drop (s + 1)) (index.drop (s + 1)) := by
  obtain ⟨hs, rfl⟩ := List.getElem?_eq_some_iff.mp hstride
  obtain ⟨hs', rfl⟩ := List.getElem?_eq_some_iff.mp hm
  rw [List.drop_eq_getElem_cons hs, List.drop_eq_getElem_cons hs', offsetAt_cons]

theorem offsetAt_drop_le (strides index : List Nat) (s : Nat) :
    offsetAt (strides.drop s) (index.drop s) ≤ offsetAt strides index := by
  induction s generalizing strides index with
  | zero => exact Nat.le_refl _
  | succ s ih =>
    cases strides with
    | nil => simp
    | cons stride strides =>
      cases index with
      | nil => simp [offsetAt]
      | cons m index =>
        rw [List.drop_succ_cons, List.drop_succ_cons, offsetAt_cons]
        exact Nat.le_trans (ih strides index) (Nat.le_add_left _ _)

/-- Contiguous strides reach the number of an element at its index. -/
theorem offsetAt_steps_index {shape : List Nat} (h : ∀ extent ∈ shape, 0 < extent) {i : Nat}
    (hi : i < volume shape) : offsetAt (steps shape) (index shape i) = i := by
  induction shape generalizing i with
  | nil =>
    rw [volume_nil] at hi
    change 0 = i
    omega
  | cons extent rest ih =>
    have hrest : ∀ other ∈ rest, 0 < other :=
      fun other hmem ↦ h other (List.mem_cons_of_mem extent hmem)
    rw [steps, index, offsetAt_cons, ih hrest (Nat.mod_lt i (volume_pos hrest))]
    exact Nat.div_add_mod i (volume rest)

end Layout

end ComputeArray
