import Mathlib.Algebra.Ring.Commute
import Mathlib.Data.Nat.Bitwise
import Mathlib.Tactic.Abel

/-!
# Polynomials over bits

A number stands for the polynomial whose coefficients are its bits, the lowest bit being the
constant one. `evaluate t n` is the value of such a polynomial at an element of a ring in which
every element is its own negative, where the symmetric difference of numbers is the sum of
polynomials. Modulo a polynomial that vanishes at the element, numbers are multiplied and raised to
powers by shifts and symmetric differences (`evaluate_times`, `evaluate_power`).
-/

set_option autoImplicit false

namespace ComputeArray.BitPolynomial

/-- Numbers with the same top bit differ in lower bits only. -/
theorem xor_lt_two_pow {a b d : Nat} (ha : a < 2 ^ (d + 1)) (hb : b < 2 ^ (d + 1))
    (htop : a.testBit d = b.testBit d) : a ^^^ b < 2 ^ d := by
  refine Nat.lt_pow_two_of_testBit _ fun i hi ↦ ?_
  rw [Nat.testBit_xor]
  by_cases hid : i = d
  · rw [hid, htop, Bool.xor_self]
  · have hbeyond {n : Nat} (hn : n < 2 ^ (d + 1)) : n.testBit i = false :=
      Nat.testBit_lt_two_pow (hn.trans_le (Nat.pow_le_pow_right Nat.two_pos (by omega)))
    rw [hbeyond ha, hbeyond hb]
    rfl

/-- The bit at the place of the highest power of two in a number. -/
theorem testBit_of_two_pow_le {n d : Nat} (hle : 2 ^ d ≤ n) (hlt : n < 2 ^ (d + 1)) :
    n.testBit d = true := by
  have hone : n / 2 ^ d = 1 := Nat.div_eq_of_lt_le (by omega) (by omega)
  rw [Nat.testBit_eq_decide_div_mod_eq, hone]
  rfl

/-! ### Values -/

section Values

variable {R : Type} [Ring R]

/-- The value of a polynomial at an element. -/
def evaluate (t : R) (n : Nat) : R :=
  if n = 0 then 0 else ((n % 2 : Nat) : R) + t * evaluate t (n / 2)
termination_by n
decreasing_by omega

variable (t : R)

@[simp] theorem evaluate_zero : evaluate t 0 = 0 := by
  rw [evaluate]
  exact if_pos rfl

theorem evaluate_eq (n : Nat) :
    evaluate t n = ((n % 2 : Nat) : R) + t * evaluate t (n / 2) := by
  by_cases hn : n = 0
  · subst hn
    simp
  · rw [evaluate, if_neg hn]

@[simp] theorem evaluate_one : evaluate t 1 = 1 := by
  rw [evaluate_eq]
  simp

theorem evaluate_double (n : Nat) : evaluate t (2 * n) = t * evaluate t n := by
  have hhalf : 2 * n / 2 = n := by omega
  rw [evaluate_eq, hhalf, Nat.mul_mod_right, Nat.cast_zero, zero_add]

/-- The value of the sum of two polynomials. -/
theorem evaluate_xor (htwice : ∀ r : R, r + r = 0) (a b : Nat) :
    evaluate t (a ^^^ b) = evaluate t a + evaluate t b := by
  induction a using Nat.strong_induction_on generalizing b with
  | _ a ih =>
    by_cases ha : a = 0
    · subst ha
      simp
    · have hbit : (((a ^^^ b) % 2 : Nat) : R) = ((a % 2 : Nat) : R) + ((b % 2 : Nat) : R) := by
        rw [Nat.xor_mod_two_eq, Nat.add_mod]
        rcases Nat.mod_two_eq_zero_or_one a with ha | ha <;>
          rcases Nat.mod_two_eq_zero_or_one b with hb | hb <;>
          simp [ha, hb, htwice]
      rw [evaluate_eq t (a ^^^ b), evaluate_eq t a, evaluate_eq t b, hbit, Nat.xor_div_two,
        ih (a / 2) (by omega), mul_add]
      abel

theorem commute_evaluate (n : Nat) : Commute t (evaluate t n) := by
  induction n using Nat.strong_induction_on with
  | _ n ih =>
    by_cases hn : n = 0
    · subst hn
      rw [evaluate_zero]
      exact Commute.zero_right t
    · rw [evaluate_eq]
      exact (Nat.commute_cast t _).add_right ((Commute.refl t).mul_right (ih _ (by omega)))

end Values

/-! ### Multiplication modulo a polynomial -/

section Modulo

variable (d modulus : Nat)

/-- Takes the modulus off a polynomial of its degree `d`. -/
def reduce (n : Nat) : Nat := n ^^^ (n >>> d % 2 * modulus)

/-- The product with the low `k` coefficients of a polynomial. -/
def times : Nat → Nat → Nat → Nat
  | 0, _, _ => 0
  | k + 1, a, b => reduce d modulus (2 * times k (a / 2) b) ^^^ (a % 2 * b)

/-- Goes on with the low `k` bits of an exponent: squares the power for each bit, and takes the
variable in for each bit that is set. -/
def powerFrom (exponent : Nat) : Nat → Nat → Nat
  | 0, power => power
  | k + 1, power =>
    powerFrom exponent k
      (reduce d modulus (times d modulus d power power * 2 ^ (exponent >>> k % 2)))

/-- A power of the variable, the exponent having `k` bits. -/
def power (k exponent : Nat) : Nat := powerFrom d modulus exponent k 1

variable {d modulus}

/-- The modulus is a polynomial of degree `d` that vanishes at an element of a ring in which every
element is its own negative. -/
structure Vanishes {R : Type} [Ring R] (t : R) (d modulus : Nat) : Prop where
  twice : ∀ r : R, r + r = 0
  lt : modulus < 2 ^ (d + 1)
  top : modulus.testBit d = true
  zero : evaluate t modulus = 0

namespace Vanishes

variable {R : Type} [Ring R] {t : R} {a b k n exponent : Nat}

theorem evaluate_reduce (h : Vanishes t d modulus) (n : Nat) :
    evaluate t (reduce d modulus n) = evaluate t n := by
  unfold reduce
  rcases Nat.mod_two_eq_zero_or_one (n >>> d) with hbit | hbit
  · rw [hbit, Nat.zero_mul, Nat.xor_zero]
  · rw [hbit, Nat.one_mul, evaluate_xor t h.twice, h.zero, add_zero]

theorem reduce_lt (h : Vanishes t d modulus) (hn : n < 2 ^ (d + 1)) :
    reduce d modulus n < 2 ^ d := by
  unfold reduce
  rw [Nat.shiftRight_eq_div_pow]
  by_cases hlow : n < 2 ^ d
  · rw [Nat.div_eq_of_lt hlow, Nat.zero_mod, Nat.zero_mul, Nat.xor_zero]
    exact hlow
  · have hone : n / 2 ^ d = 1 := Nat.div_eq_of_lt_le (by omega) (by omega)
    rw [hone, Nat.one_mul]
    exact xor_lt_two_pow hn h.lt (by rw [testBit_of_two_pow_le (by omega) hn, h.top])

theorem times_lt (h : Vanishes t d modulus) (k a : Nat) (hb : b < 2 ^ d) :
    times d modulus k a b < 2 ^ d := by
  induction k generalizing a with
  | zero => exact Nat.two_pow_pos d
  | succ k ih =>
    have hdouble : 2 * times d modulus k (a / 2) b < 2 ^ (d + 1) := by
      have hrest := ih (a / 2)
      rw [Nat.pow_succ]
      omega
    have hlast : a % 2 * b < 2 ^ d := by
      rcases Nat.mod_two_eq_zero_or_one a with hbit | hbit
      · rw [hbit, Nat.zero_mul]
        exact Nat.two_pow_pos d
      · rwa [hbit, Nat.one_mul]
    exact Nat.xor_lt_two_pow (h.reduce_lt hdouble) hlast

/-- The value of a product is the product of the values. -/
theorem evaluate_times (h : Vanishes t d modulus) (ha : a < 2 ^ k) (b : Nat) :
    evaluate t (times d modulus k a b) = evaluate t a * evaluate t b := by
  induction k generalizing a with
  | zero =>
    obtain rfl : a = 0 := by omega
    simp [times]
  | succ k ih =>
    have hhalf : a / 2 < 2 ^ k := by
      rw [Nat.pow_succ] at ha
      omega
    have hlast : evaluate t (a % 2 * b) = ((a % 2 : Nat) : R) * evaluate t b := by
      rcases Nat.mod_two_eq_zero_or_one a with hbit | hbit <;> simp [hbit]
    rw [times, evaluate_xor t h.twice, h.evaluate_reduce, evaluate_double, ih hhalf, hlast,
      evaluate_eq t a, add_mul, mul_assoc, add_comm]

theorem evaluate_powerFrom (h : Vanishes t d modulus) (exponent k : Nat) {power : Nat}
    (hpower : power < 2 ^ d) :
    evaluate t (powerFrom d modulus exponent k power) =
      evaluate t power ^ 2 ^ k * t ^ (exponent % 2 ^ k) := by
  induction k generalizing power with
  | zero => simp [powerFrom, Nat.mod_one]
  | succ k ih =>
    set bit := exponent >>> k % 2 with hbit
    set next := reduce d modulus (times d modulus d power power * 2 ^ bit) with hnext
    have hsquare := h.times_lt d power hpower
    have hbound : times d modulus d power power * 2 ^ bit < 2 ^ (d + 1) := by
      rcases Nat.mod_two_eq_zero_or_one (exponent >>> k) with hzero | hone
      · rw [hbit, hzero, Nat.pow_zero, Nat.mul_one]
        exact hsquare.trans (Nat.pow_lt_pow_right (by decide) (Nat.lt_succ_self d))
      · rw [hbit, hone, Nat.pow_one, Nat.pow_succ]
        omega
    have hvalue : evaluate t next = evaluate t power ^ 2 * t ^ bit := by
      rw [hnext, h.evaluate_reduce, sq, ← h.evaluate_times hpower]
      rcases Nat.mod_two_eq_zero_or_one (exponent >>> k) with hzero | hone
      · rw [hbit, hzero, Nat.pow_zero, Nat.mul_one, pow_zero, mul_one]
      · rw [hbit, hone, Nat.pow_one, Nat.mul_comm, evaluate_double, pow_one]
        exact commute_evaluate t _
    have hcommute : Commute (evaluate t power ^ 2) (t ^ bit) :=
      ((commute_evaluate t power).symm.pow_left 2).pow_right bit
    have hexponent : bit * 2 ^ k + exponent % 2 ^ k = exponent % 2 ^ (k + 1) := by
      rw [Nat.mod_pow_succ, hbit, Nat.shiftRight_eq_div_pow, Nat.mul_comm, Nat.add_comm]
    calc evaluate t (powerFrom d modulus exponent k next)
        = evaluate t next ^ 2 ^ k * t ^ (exponent % 2 ^ k) := ih (h.reduce_lt hbound)
      _ = (evaluate t power ^ 2) ^ 2 ^ k * (t ^ bit) ^ 2 ^ k * t ^ (exponent % 2 ^ k) := by
        rw [hvalue, hcommute.mul_pow]
      _ = evaluate t power ^ 2 ^ (k + 1) * t ^ (exponent % 2 ^ (k + 1)) := by
        rw [← pow_mul, ← pow_mul, mul_assoc, ← pow_add, hexponent, Nat.pow_succ, Nat.mul_comm 2]

/-- The value of a power of the variable is that power of the element. -/
theorem evaluate_power (h : Vanishes t d modulus) (hd : 0 < d) (hexponent : exponent < 2 ^ k) :
    evaluate t (power d modulus k exponent) = t ^ exponent := by
  rw [power, h.evaluate_powerFrom exponent k (Nat.one_lt_two_pow (Nat.ne_of_gt hd)), evaluate_one,
    one_pow, one_mul, Nat.mod_eq_of_lt hexponent]

end Vanishes

end Modulo

end ComputeArray.BitPolynomial
