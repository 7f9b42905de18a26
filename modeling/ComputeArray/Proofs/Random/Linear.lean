import ComputeArray.Proofs.Random.Polynomial
import ComputeArray.Random.Stream
import Mathlib.Algebra.Group.Hom.End

/-!
# Linearity of streams

The states of a stream are vectors of bits, and the sum of two of them is their symmetric
difference. A step respects sums, so `stepEnd` is an endomorphism of the additive group of states.
One that vanishes at all states with a single bit is zero (`eq_zero_of_units`).
-/

set_option autoImplicit false

namespace ComputeArray.Random

/-! ### Words -/

/-- Turning a word to the left moves each of its bits by itself. -/
theorem rotateLeft_xor (x y : UInt32) :
    rotateLeft (x ^^^ y) 11 = rotateLeft x 11 ^^^ rotateLeft y 11 := by
  apply UInt32.eq_of_toBitVec_eq
  simp only [rotateLeft, UInt32.toBitVec_or, UInt32.toBitVec_shiftLeft,
    UInt32.toBitVec_shiftRight, UInt32.toBitVec_xor]
  ext i hi
  -- A bit below the eleventh comes from the right end, any other one from the left shift.
  by_cases hlow : i < 11
  · simp [hlow]
  · have hbeyond : 32 ≤ 21 + i := by omega
    simp [hlow]
    grind

/-- What holds of zero and of the powers of two, and is passed on to sums, holds of all words. -/
theorem word_induction {P : UInt32 → Prop} (hzero : P 0)
    (hunit : ∀ i < 32, P (UInt32.ofNat (2 ^ i))) (hxor : ∀ x y, P x → P y → P (x ^^^ y))
    (x : UInt32) : P x := by
  have hbelow : ∀ k ≤ 32, ∀ n < 2 ^ k, P (UInt32.ofNat n) := by
    intro k hk
    induction k with
    | zero =>
      intro n hn
      obtain rfl : n = 0 := by omega
      exact hzero
    | succ k ih =>
      intro n hn
      by_cases hlow : n < 2 ^ k
      · exact ih (by omega) n hlow
      · have hbit := BitPolynomial.testBit_of_two_pow_le (Nat.le_of_not_lt hlow) hn
        have hrest : n ^^^ 2 ^ k < 2 ^ k :=
          BitPolynomial.xor_lt_two_pow hn (Nat.pow_lt_pow_right (by decide) (by omega))
            (by rw [hbit, Nat.testBit_two_pow_self])
        have hsplit : UInt32.ofNat n = UInt32.ofNat (n ^^^ 2 ^ k) ^^^ UInt32.ofNat (2 ^ k) := by
          rw [← UInt32.ofNat_xor, Nat.xor_assoc, Nat.xor_self, Nat.xor_zero]
        rw [hsplit]
        exact hxor _ _ (ih (by omega) _ hrest) (hunit k (by omega))
  have hx : x = UInt32.ofNat x.toNat := by simp
  rw [hx]
  exact hbelow 32 le_rfl _ x.toNat_lt

/-! ### States -/

namespace StreamState

instance : Zero StreamState := ⟨zero⟩

instance : Add StreamState := ⟨xor⟩

instance : Neg StreamState := ⟨id⟩

theorem add_eq_xor (s t : StreamState) : s + t = s.xor t := rfl

theorem zero_eq : (0 : StreamState) = zero := rfl

/-- Every state is its own negative. -/
theorem neg_eq (s : StreamState) : -s = s := rfl

instance : AddCommGroup StreamState where
  add_assoc r s t := by simp only [add_eq_xor, xor, UInt32.xor_assoc]
  zero_add s := by simp only [add_eq_xor, zero_eq, xor, zero, UInt32.zero_xor]
  add_zero s := by simp only [add_eq_xor, zero_eq, xor, zero, UInt32.xor_zero]
  neg_add_cancel s := by simp only [add_eq_xor, zero_eq, neg_eq, xor, zero, UInt32.xor_self]
  add_comm s t := by simp only [add_eq_xor, xor, UInt32.xor_comm]
  nsmul := nsmulRec
  zsmul := zsmulRec

theorem add_self (s : StreamState) : s + s = 0 := neg_add_cancel s

theorem next_add (s t : StreamState) : (s + t).next = s.next + t.next := by
  simp only [add_eq_xor, xor, next, rotateLeft_xor, UInt32.shiftLeft_xor, mk.injEq]
  refine ⟨?_, ?_, ?_, ?_⟩ <;> ac_rfl

/-- A step as an endomorphism of the group of states. -/
def stepEnd : AddMonoid.End StreamState := AddMonoidHom.mk' next next_add

theorem stepEnd_pow_apply (n : Nat) (s : StreamState) : (stepEnd ^ n) s = next^[n] s := by
  rw [AddMonoid.End.coe_pow]
  rfl

/-- The states with a single bit. -/
def units : List StreamState :=
  (List.range 32).flatMap fun i ↦
    let bit := UInt32.ofNat (2 ^ i)
    [⟨bit, 0, 0, 0⟩, ⟨0, bit, 0, 0⟩, ⟨0, 0, bit, 0⟩, ⟨0, 0, 0, bit⟩]

/-- An endomorphism that vanishes at all states with a single bit is zero. -/
theorem eq_zero_of_units {f : AddMonoid.End StreamState} (h : ∀ s ∈ units, f s = 0) : f = 0 := by
  have hunit (place : UInt32 → StreamState)
      (hplace : ∀ i < 32, place (UInt32.ofNat (2 ^ i)) ∈ units) (hzero : place 0 = 0)
      (hxor : ∀ x y, place (x ^^^ y) = place x + place y) (x : UInt32) : f (place x) = 0 := by
    refine word_induction (P := fun x ↦ f (place x) = 0) ?_ (fun i hi ↦ h _ (hplace i hi))
      (fun x y hx hy ↦ ?_) x
    · rw [hzero, map_zero]
    · rw [hxor, map_add, hx, hy, add_zero]
  have hmem {i : Nat} (hi : i < 32) {s : StreamState}
      (hs : s ∈ [(⟨UInt32.ofNat (2 ^ i), 0, 0, 0⟩ : StreamState), ⟨0, UInt32.ofNat (2 ^ i), 0, 0⟩,
        ⟨0, 0, UInt32.ofNat (2 ^ i), 0⟩, ⟨0, 0, 0, UInt32.ofNat (2 ^ i)⟩]) : s ∈ units :=
    List.mem_flatMap.mpr ⟨i, List.mem_range.mpr hi, hs⟩
  ext1 s
  have hsplit : s = ⟨s.x, 0, 0, 0⟩ + ⟨0, s.y, 0, 0⟩ + ⟨0, 0, s.z, 0⟩ + ⟨0, 0, 0, s.w⟩ := by
    simp only [add_eq_xor, xor, UInt32.xor_zero, UInt32.zero_xor]
  have hx := hunit (⟨·, 0, 0, 0⟩) (fun i hi ↦ hmem hi (by simp)) rfl
    (fun x y ↦ by simp [add_eq_xor, xor]) s.x
  have hy := hunit (⟨0, ·, 0, 0⟩) (fun i hi ↦ hmem hi (by simp)) rfl
    (fun x y ↦ by simp [add_eq_xor, xor]) s.y
  have hz := hunit (⟨0, 0, ·, 0⟩) (fun i hi ↦ hmem hi (by simp)) rfl
    (fun x y ↦ by simp [add_eq_xor, xor]) s.z
  have hw := hunit (⟨0, 0, 0, ·⟩) (fun i hi ↦ hmem hi (by simp)) rfl
    (fun x y ↦ by simp [add_eq_xor, xor]) s.w
  rw [hsplit, map_add, map_add, map_add, hx, hy, hz, hw]
  rfl

end StreamState

end ComputeArray.Random
