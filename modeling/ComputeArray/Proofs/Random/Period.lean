import ComputeArray.Proofs.Random.Jump
import Mathlib.Dynamics.PeriodicPts.Defs
import Mathlib.NumberTheory.LucasPrimality
import Mathlib.Tactic.NormNum.Prime
import Mathlib.Tactic.ReduceModChar

/-!
# The period of a stream

The step of a stream has order 2^128 - 1, the number of states other than zero: it fixes no other
state after any of the maximal proper divisors of that number of steps, so all these states lie on
one cycle. Since a jump goes 2^64 steps along that cycle, streams of 2^64 words that start at
different numbers of jumps have no state in common, except that the last state of the last stream
closes the cycle (`streams_meet_iff`).
-/

set_option autoImplicit false

namespace ComputeArray.Random.StreamState

open BitPolynomial Function

/-- The number of states other than zero. -/
def fullPeriod : Nat := 2 ^ 128 - 1

/-- A prime factor of the full period, and the polynomial that is inverse to `x ^ power - 1` modulo
the characteristic polynomial of a step, `power` being the full period divided by the factor. -/
structure FactorCertificate where
  factor : Nat
  inverse : Nat

def factorCertificates : List FactorCertificate := [
  ⟨3, 0x188ce7ea029c4bf6dded83847a711395⟩,
  ⟨5, 0xd0b81dc3de8363ddddfd32c4ef886bf4⟩,
  ⟨17, 0x7d5de34ef14456cdccabf22143842b52⟩,
  ⟨257, 0xf98c9dfcc04c64b2b8cfb96508e78fcd⟩,
  ⟨641, 0x40b0c263cbfa8427d62f24e6089d3f8b⟩,
  ⟨65537, 0x7c352e1c640bd6131b1eecf072501922⟩,
  ⟨274177, 0x464896dcfdd900fb8dfdabe1bc3542b9⟩,
  ⟨6700417, 0xcfaf9079377931cb1b4625d2ff58d222⟩,
  ⟨67280421310721, 0x39046ea60511db4048a3c9d486cbc62a⟩]

/-- The polynomial of the certificate is below the degree and is the inverse it claims to be. -/
def FactorCertificate.Holds (certificate : FactorCertificate) : Prop :=
  certificate.inverse < 2 ^ 128 ∧
    times 128 stepPolynomial 128 certificate.inverse
      (power 128 stepPolynomial 128 (fullPeriod / certificate.factor) ^^^ 1) = 1

instance (certificate : FactorCertificate) : Decidable certificate.Holds :=
  inferInstanceAs (Decidable (_ ∧ _))

theorem holds_of_mem : ∀ certificate ∈ factorCertificates, certificate.Holds := by
  decide +kernel

/-! ### The factors -/

theorem prime_67280421310721 : Nat.Prime 67280421310721 := by
  have hprime : ∀ q ∈ List.replicate 8 2 ++ [5, 47, 373, 2998279], Nat.Prime q := by
    simp only [List.forall_mem_append, List.forall_mem_cons, List.not_mem_nil, false_implies,
      implies_true, and_true]
    exact ⟨fun q hq ↦ List.eq_of_mem_replicate hq ▸ Nat.prime_two, by norm_num⟩
  have hprod : 67280421310721 - 1 = (List.replicate 8 2 ++ [5, 47, 373, 2998279]).prod := by decide
  refine lucas_primality _ 3 (by reduce_mod_char) fun q hq hdvd ↦ ?_
  rw [hprod] at hdvd
  have hmem := mem_list_primes_of_dvd_prod hq.prime (fun q hq ↦ (hprime q hq).prime) hdvd
  simp only [List.mem_append, List.mem_replicate, List.mem_cons, List.not_mem_nil, or_false] at hmem
  obtain ⟨-, rfl⟩ | rfl | rfl | rfl | rfl := hmem <;>
  · reduce_mod_char
    decide

theorem prod_factors : (factorCertificates.map (·.factor)).prod = fullPeriod := by
  decide

/-- The factors of the full period are prime. -/
theorem prime_of_mem_factors : ∀ q ∈ factorCertificates.map (·.factor), q.Prime := by
  simp only [factorCertificates, List.map_cons, List.map_nil, List.forall_mem_cons,
    List.not_mem_nil, false_implies, implies_true, and_true]
  refine ⟨?_, ?_, ?_, ?_, ?_, ?_, ?_, ?_, prime_67280421310721⟩ <;> norm_num

/-- Every prime divisor of the full period has a certificate. -/
theorem exists_certificate {q : Nat} (hq : q.Prime) (hdvd : q ∣ fullPeriod) :
    ∃ certificate ∈ factorCertificates, certificate.factor = q := by
  rw [← prod_factors] at hdvd
  exact List.mem_map.mp
    (mem_list_primes_of_dvd_prod hq.prime (fun q hq ↦ (prime_of_mem_factors q hq).prime) hdvd)

/-! ### The period -/

theorem stepEnd_pow_fullPeriod : stepEnd ^ fullPeriod = 1 := by
  have hexponent : fullPeriod < 2 ^ 128 := by decide
  have hpower : power 128 stepPolynomial 128 fullPeriod = 1 := by decide +kernel
  rw [← vanishes_stepEnd.evaluate_power (by decide) hexponent, hpower, evaluate_one]

/-- A state that comes back after a proper part of the full period is zero. -/
theorem eq_zero_of_stepEnd_pow {q : Nat} (hq : q.Prime) (hdvd : q ∣ fullPeriod) {s : StreamState}
    (hs : (stepEnd ^ (fullPeriod / q)) s = s) : s = zero := by
  obtain ⟨certificate, hmem, rfl⟩ := exists_certificate hq hdvd
  obtain ⟨hlt, hinverse⟩ := holds_of_mem certificate hmem
  have hexponent : fullPeriod / certificate.factor < 2 ^ 128 :=
    (Nat.div_le_self _ _).trans_lt (by decide)
  have hone : evaluate stepEnd certificate.inverse * (stepEnd ^ (fullPeriod / certificate.factor) +
      1) = 1 := by
    rw [← vanishes_stepEnd.evaluate_power (by decide) hexponent, ← evaluate_one stepEnd,
      ← evaluate_xor _ end_add_self, ← vanishes_stepEnd.evaluate_times hlt, hinverse]
  calc s = (1 : AddMonoid.End StreamState) s := rfl
    _ = evaluate stepEnd certificate.inverse
          ((stepEnd ^ (fullPeriod / certificate.factor)) s + s) := by rw [← hone]; rfl
    _ = zero := by rw [hs, add_self, map_zero, zero_eq]

theorem isPeriodicPt_iff {n : Nat} {s : StreamState} :
    IsPeriodicPt next n s ↔ (stepEnd ^ n) s = s := by
  rw [stepEnd_pow_apply]
  rfl

/-- Every state other than zero has the full period. -/
theorem minimalPeriod_next {s : StreamState} (hs : s ≠ zero) :
    minimalPeriod next s = fullPeriod := by
  have hdvd : minimalPeriod next s ∣ fullPeriod := by
    rw [← isPeriodicPt_iff_minimalPeriod_dvd, isPeriodicPt_iff, stepEnd_pow_fullPeriod]
    rfl
  obtain ⟨rest, hrest⟩ := hdvd
  by_contra hne
  have hrest_ne : rest ≠ 1 := by
    rintro rfl
    exact hne (by rw [hrest, Nat.mul_one])
  obtain ⟨q, hq, part, rfl⟩ := Nat.exists_prime_and_dvd hrest_ne
  refine hs (eq_zero_of_stepEnd_pow hq (by rw [hrest]; exact ⟨minimalPeriod next s * part, by ring⟩)
    (isPeriodicPt_iff.mp ?_))
  have hquotient : fullPeriod / q = minimalPeriod next s * part := by
    rw [hrest]
    exact Nat.div_eq_of_eq_mul_right hq.pos (by ring)
  rw [isPeriodicPt_iff_minimalPeriod_dvd, hquotient]
  exact Nat.dvd_mul_right _ _

/-- Two numbers of steps lead to the same state if they differ by a multiple of the full period. -/
theorem iterate_next_eq_iff {s : StreamState} (hs : s ≠ zero) {m n : Nat} :
    next^[m] s = next^[n] s ↔ m % fullPeriod = n % fullPeriod := by
  have hpos : 0 < minimalPeriod next s := by
    rw [minimalPeriod_next hs]
    decide
  rw [← iterate_mod_minimalPeriod_eq (n := m), ← iterate_mod_minimalPeriod_eq (n := n),
    iterate_eq_iterate_iff_of_lt_minimalPeriod (Nat.mod_lt _ hpos) (Nat.mod_lt _ hpos),
    minimalPeriod_next hs]

/-- A step has an inverse, so it leads to zero from zero only. -/
theorem iterate_next_ne_zero {s : StreamState} (hs : s ≠ zero) (n : Nat) : next^[n] s ≠ zero := by
  intro hzero
  have hstep : (stepEnd ^ n) s = 0 := by rw [stepEnd_pow_apply, hzero, zero_eq]
  have hback : (stepEnd ^ ((fullPeriod - 1) * n)) ((stepEnd ^ n) s) = s := by
    have hexponent : (fullPeriod - 1) * n + n = fullPeriod * n := by
      have hfull : fullPeriod = fullPeriod - 1 + 1 := by decide
      rw [hfull, Nat.add_sub_cancel, Nat.add_mul, Nat.one_mul]
    have hpow : stepEnd ^ ((fullPeriod - 1) * n) * stepEnd ^ n = 1 := by
      rw [← pow_add, hexponent, pow_mul, stepEnd_pow_fullPeriod, one_pow]
    exact DFunLike.congr_fun hpow s
  rw [hstep, map_zero] at hback
  exact hs (hback.symm.trans zero_eq)

/-! ### Streams -/

theorem jumpTimes_eq (count : Nat) (s : StreamState) :
    s.jumpTimes count = next^[2 ^ 64 * count] s := by
  induction count generalizing s with
  | zero => rfl
  | succ count ih =>
    rw [jumpTimes, ih, jump_eq_pow, stepEnd_pow_apply, ← iterate_add_apply, Nat.mul_succ]

/-- The steps of a draw from a stream, counted from the start of the first stream. -/
theorem iterate_next_jumpTimes (count steps : Nat) (s : StreamState) :
    next^[steps] (s.jumpTimes count) = next^[2 ^ 64 * count + steps] s := by
  rw [jumpTimes_eq, ← iterate_add_apply, Nat.add_comm]

/-- Within one period only the two ends are the same place on the cycle. -/
theorem mod_fullPeriod_eq_iff {m n : Nat} (hm : m ≤ fullPeriod) (hn : n ≤ fullPeriod) :
    m % fullPeriod = n % fullPeriod ↔
      m = n ∨ (m = 0 ∧ n = fullPeriod) ∨ (m = fullPeriod ∧ n = 0) := by
  have hpos : 0 < fullPeriod := by decide
  have hmod {k : Nat} (hk : k ≤ fullPeriod) : k % fullPeriod = if k = fullPeriod then 0 else k := by
    split
    · rename_i heq
      rw [heq, Nat.mod_self]
    · exact Nat.mod_eq_of_lt (by omega)
  rw [hmod hm, hmod hn]
  generalize fullPeriod = period at *
  split <;> split <;> omega

/-- The states on the cycle of a state other than zero, for streams of 2^64 words: the cycle has the
full period, zero is not on it, and two streams have a state in common only where the last state of
the last stream closes the cycle. -/
theorem streams_meet_iff {s : StreamState} (hs : s ≠ zero) :
    minimalPeriod next s = 2 ^ 128 - 1 ∧ (∀ n, next^[n] s ≠ zero) ∧
      ∀ i < 2 ^ 64, ∀ j < 2 ^ 64, i ≠ j → ∀ a < 2 ^ 64, ∀ b < 2 ^ 64,
        (next^[a] (s.jumpTimes i) = next^[b] (s.jumpTimes j) ↔
          (i = 0 ∧ a = 0 ∧ j = 2 ^ 64 - 1 ∧ b = 2 ^ 64 - 1) ∨
            (i = 2 ^ 64 - 1 ∧ a = 2 ^ 64 - 1 ∧ j = 0 ∧ b = 0)) := by
  refine ⟨minimalPeriod_next hs, iterate_next_ne_zero hs, fun i hi j hj hij a ha b hb ↦ ?_⟩
  rw [iterate_next_jumpTimes, iterate_next_jumpTimes, iterate_next_eq_iff hs]
  have hi : 2 ^ 64 * i + a ≤ fullPeriod := by
    unfold fullPeriod
    omega
  have hj : 2 ^ 64 * j + b ≤ fullPeriod := by
    unfold fullPeriod
    omega
  rw [mod_fullPeriod_eq_iff hi hj]
  unfold fullPeriod
  omega

/-- Draws in the middle of two streams have different states. -/
theorem streams_meet_iff_apart :
    (⟨1, 2, 3, 4⟩ : StreamState) ≠ zero ∧
      next^[5] (jumpTimes 3 ⟨1, 2, 3, 4⟩) ≠ next^[2 ^ 64 - 1] (jumpTimes 7 ⟨1, 2, 3, 4⟩) := by
  have hs : (⟨1, 2, 3, 4⟩ : StreamState) ≠ zero := by decide
  refine ⟨hs, fun hmeet ↦ ?_⟩
  have hcorner := ((streams_meet_iff hs).2.2 3 (by decide) 7 (by decide) (by decide) 5 (by decide)
    (2 ^ 64 - 1) (by decide)).mp hmeet
  omega

/-- The last stream of 2^64 words ends where the first one starts. -/
theorem last_state_of_last_stream :
    (⟨1, 2, 3, 4⟩ : StreamState) ≠ zero ∧
      next^[2 ^ 64 - 1] (jumpTimes (2 ^ 64 - 1) ⟨1, 2, 3, 4⟩) =
        next^[0] (jumpTimes 0 ⟨1, 2, 3, 4⟩) := by
  refine ⟨by decide, ?_⟩
  have hsteps : 2 ^ 64 * (2 ^ 64 - 1) + (2 ^ 64 - 1) = fullPeriod := by decide
  rw [iterate_next_jumpTimes, iterate_next_jumpTimes, hsteps, ← stepEnd_pow_apply,
    stepEnd_pow_fullPeriod]
  rfl

end ComputeArray.Random.StreamState
