import ComputeArray.Proofs.Memory.Same
import Mathlib.Algebra.Group.Nat.Defs

/-!
# Words in vectors

A vector made of words gives these words back (`elements_ofWords`), since an element written at a
position is read there and leaves all other elements as they were.
-/

set_option autoImplicit false

namespace ComputeArray.Bytes

/-! ### Numbers -/

theorem get_putNumber_of_outside {bytes : Bytes} {start n width j : Nat}
    (h : j < start ∨ start + width ≤ j) : (bytes.putNumber start n width).get j = bytes.get j := by
  induction width generalizing bytes start n with
  | zero => rfl
  | succ width ih =>
    have hne : start ≠ j := by omega
    rw [putNumber, ih (by omega), get_set, if_neg (by omega)]

theorem number_congr {a b : Bytes} {start width : Nat}
    (h : ∀ j, start ≤ j → j < start + width → a.get j = b.get j) :
    a.number start width = b.number start width := by
  induction width generalizing start with
  | zero => rfl
  | succ width ih =>
    have hfirst := h start (Nat.le_refl _) (by omega)
    have hrest : a.number (start + 1) width = b.number (start + 1) width :=
      ih fun j hj hlt ↦ h j (by omega) (by omega)
    rw [number, number, hfirst, hrest]

theorem number_putNumber {bytes : Bytes} {start n width : Nat}
    (hsize : start + width ≤ bytes.size) :
    (bytes.putNumber start n width).number start width = n % 256 ^ width := by
  induction width generalizing bytes start n with
  | zero => rw [Nat.pow_zero, Nat.mod_one, number]
  | succ width ih =>
    have hrest : ((bytes.set start (UInt8.ofNat n)).putNumber (start + 1) (n / 256) width).number
        (start + 1) width = n / 256 % 256 ^ width := by
      refine ih ?_
      rw [size_set]
      omega
    have hfirst : (((bytes.set start (UInt8.ofNat n)).putNumber (start + 1) (n / 256) width).get
        start).toNat = n % 256 := by
      rw [get_putNumber_of_outside (by omega), get_set, if_pos ⟨rfl, by omega⟩]
      exact UInt8.toNat_ofNat'
    rw [putNumber, number, hfirst, hrest, Nat.pow_succ', Nat.mod_mul]

/-! ### Elements -/

theorem element_putElement_self {bytes : Bytes} {width position n : Nat}
    (hsize : (position + 1) * width ≤ bytes.size) (hn : n < 256 ^ width) :
    (bytes.putElement width position n).element width position = n := by
  rw [element, putElement, number_putNumber, Nat.mod_eq_of_lt hn]
  rw [Nat.add_mul, Nat.one_mul] at hsize
  exact hsize

theorem element_putElement_of_ne {bytes : Bytes} {width position other n : Nat}
    (h : other ≠ position) :
    (bytes.putElement width position n).element width other = bytes.element width other := by
  refine number_congr fun j hj hlt ↦ get_putNumber_of_outside ?_
  rcases Nat.lt_or_gt_of_ne h with hbefore | hafter
  · have hle : (other + 1) * width ≤ position * width := Nat.mul_le_mul_right _ hbefore
    rw [Nat.add_mul, Nat.one_mul] at hle
    omega
  · have hle : (position + 1) * width ≤ other * width := Nat.mul_le_mul_right _ hafter
    rw [Nat.add_mul, Nat.one_mul] at hle
    omega

theorem element_putElements_of_not_mem {bytes : Bytes} {width other : Nat}
    {items : List (Nat × Nat)} (h : other ∉ items.map Prod.fst) :
    (bytes.putElements width items).element width other = bytes.element width other := by
  induction items generalizing bytes with
  | nil => rfl
  | cons item rest ih =>
    obtain ⟨position, n⟩ := item
    rw [List.map_cons, List.mem_cons, not_or] at h
    rw [putElements, ih h.2, element_putElement_of_ne h.1]

/-- Elements written one after the other from a position on. -/
theorem element_putElements_range {bytes : Bytes} {width start : Nat} {words : List Nat}
    (hsize : (start + words.length) * width ≤ bytes.size)
    (hwords : ∀ word ∈ words, word < 256 ^ width) {i : Nat} (hi : i < words.length) :
    (bytes.putElements width ((List.range' start words.length).zip words)).element width
      (start + i) = words[i] := by
  induction words generalizing bytes start i with
  | nil => cases hi
  | cons word rest ih =>
    rw [List.length_cons, List.range'_succ, List.zip_cons_cons, putElements]
    rw [List.length_cons] at hsize
    cases i with
    | zero =>
      have hlater : start ∉ ((List.range' (start + 1) rest.length).zip rest).map Prod.fst := by
        rw [List.map_fst_zip (by simp), List.mem_range'_1]
        omega
      have hfirst : (start + 1) * width ≤ bytes.size :=
        Nat.le_trans (Nat.mul_le_mul_right _ (by omega)) hsize
      change Bytes.element _ width start = word
      rw [element_putElements_of_not_mem hlater,
        element_putElement_self hfirst (hwords word (by simp))]
    | succ i =>
      have hrest : (start + 1 + rest.length) * width ≤
          (bytes.putElement width start word).size := by
        rw [putElement, size_putNumber]
        exact Nat.le_trans (Nat.mul_le_mul_right _ (by omega)) hsize
      have hi : i < rest.length := by simpa using hi
      have hstart : start + (i + 1) = start + 1 + i := by omega
      rw [hstart, ih hrest (fun later hmem ↦ hwords later (by simp [hmem])) hi]
      rfl

@[simp] theorem size_ofWords (words : List Nat) : (ofWords words).size = 4 * words.length := by
  rw [ofWords, size_putElements]
  rfl

/-- A vector of words holds these words. -/
theorem elements_ofWords {words : List Nat} (h : ∀ word ∈ words, word < 2 ^ 32) :
    (ofWords words).elements 4 words.length = words := by
  refine List.ext_getElem (by simp [elements]) fun i hi hi' ↦ ?_
  have hsize : (0 + words.length) * 4 ≤ (zeros (4 * words.length)).size := by
    change (0 + words.length) * 4 ≤ 4 * words.length
    omega
  have hbound : ∀ word ∈ words, word < 256 ^ 4 := h
  have hread := element_putElements_range hsize hbound hi'
  rw [Nat.zero_add, ← List.range_eq_range'] at hread
  rw [← hread]
  simp [elements, ofWords]

end ComputeArray.Bytes
