import ComputeArray.Proofs.Random.Linear

/-!
# Jumps

A step satisfies a polynomial of degree 128, so each of its powers is a sum of lower ones, and the
sums along a list of bits are the values of polynomials at the step. Of the jump polynomial the
value is the power of the step with exponent 2^64 (`jump_eq_iterate_next`).
-/

set_option autoImplicit false

namespace ComputeArray.Random.StreamState

open BitPolynomial

/-- The characteristic polynomial of a step. -/
def stepPolynomial : Nat := 0x100fc65a2006254b11b489db6de18fc01

/-- The number with the given bits, lowest first. -/
def ofBits : List Bool → Nat
  | [] => 0
  | bit :: rest => bit.toNat + 2 * ofBits rest

/-- Summing along bits applies the value of a polynomial at the step. -/
theorem sumAlong_eq_evaluate (bits : List Bool) (s sum : StreamState) :
    sumAlong bits s sum = sum + evaluate stepEnd (ofBits bits) s := by
  induction bits generalizing s sum with
  | nil =>
    rw [ofBits, evaluate_zero]
    exact (add_zero sum).symm
  | cons bit rest ih =>
    have hlow : (bit.toNat + 2 * ofBits rest) % 2 = bit.toNat := by
      have hbit := bit.toNat_lt
      omega
    have hhigh : (bit.toNat + 2 * ofBits rest) / 2 = ofBits rest := by
      have hbit := bit.toNat_lt
      omega
    have hcommute : (stepEnd * evaluate stepEnd (ofBits rest)) s =
        evaluate stepEnd (ofBits rest) s.next :=
      DFunLike.congr_fun (commute_evaluate stepEnd _) s
    have hvalue : evaluate stepEnd (ofBits (bit :: rest)) =
        ((bit.toNat : Nat) : AddMonoid.End StreamState) +
          stepEnd * evaluate stepEnd (ofBits rest) := by
      rw [ofBits, evaluate_eq, hlow, hhigh]
    have happly : evaluate stepEnd (ofBits (bit :: rest)) s =
        bit.toNat • s + evaluate stepEnd (ofBits rest) s.next := by
      rw [hvalue, ← hcommute]
      rfl
    rw [sumAlong, ih, happly, ← add_assoc]
    cases bit with
    | false => simp
    | true => rw [if_pos rfl, ← add_eq_xor, Bool.toNat_true, one_nsmul]

theorem end_add_self (f : AddMonoid.End StreamState) : f + f = 0 := by
  ext1 s
  exact add_self (f s)

/-- The bits of the characteristic polynomial of a step. -/
def stepBits : List Bool := (List.range 129).map stepPolynomial.testBit

theorem sumAlong_stepBits : ∀ s ∈ units, sumAlong stepBits s zero = zero := by
  decide +kernel

/-- A step satisfies its characteristic polynomial. -/
theorem vanishes_stepEnd : Vanishes stepEnd 128 stepPolynomial where
  twice := end_add_self
  lt := by decide
  top := by decide
  zero := by
    have hbits : ofBits stepBits = stepPolynomial := by decide +kernel
    refine eq_zero_of_units fun s hs ↦ ?_
    rw [← hbits, ← zero_add (evaluate stepEnd _ s), zero_eq, ← sumAlong_eq_evaluate]
    exact sumAlong_stepBits s hs

/-- The jump polynomial is the power of the variable with exponent 2^64, modulo the characteristic
polynomial. -/
theorem ofBits_jumpBits : ofBits jumpBits = power 128 stepPolynomial 65 (2 ^ 64) := by
  decide +kernel

/-- A jump is an endomorphism of the group of states. -/
theorem jump_eq_pow (s : StreamState) : s.jump = (stepEnd ^ 2 ^ 64) s := by
  have hexponent : 2 ^ 64 < 2 ^ 65 := by decide
  rw [jump, sumAlong_eq_evaluate, ← zero_eq, zero_add, ofBits_jumpBits,
    vanishes_stepEnd.evaluate_power (by decide) hexponent]

/-- A jump moves a stream ahead by 2^64 steps. -/
theorem jump_eq_iterate_next (s : StreamState) : s.jump = next^[2 ^ 64] s := by
  rw [jump_eq_pow, stepEnd_pow_apply]

end ComputeArray.Random.StreamState
