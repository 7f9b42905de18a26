import ComputeArray.Random.Seed
import Mathlib.Data.UInt
import Mathlib.Data.Fintype.EquivFin

/-!
# Seeding is total and free of collisions

The output mix of the counter is a composition of xor-shifts to the right and of multiplications by
odd constants. A xor-shift is undone from the highest bit down (`xorShiftRight_injective`), an odd
constant by its inverse among the words, so the mix is a bijection, and it fixes only zero to zero
(`mix_injective`, `mix_eq_zero_iff`). Two successive outputs come from different counters, so they
are not both zero (`expand_ne_zero`), and the first one alone gives the seed's word back
(`expand_injective`). A seed's word is its residue modulo `2 ^ 64` (`wordOf_eq_iff`).
-/

set_option autoImplicit false

namespace ComputeArray.Random

/-! ### The mix -/

/-- A word is found again from its sum with itself shifted to the right, from the highest bit
down. -/
theorem xorShiftRight_injective {width shift : Nat} (hshift : 0 < shift) :
    Function.Injective fun x : BitVec width ↦ x ^^^ (x >>> shift) := by
  intro x y h
  have hbits : ∀ left i, width - i = left → x.getLsbD i = y.getLsbD i := by
    intro left
    induction left using Nat.strongRecOn with
    | ind left ih =>
      intro i hi
      by_cases hwidth : i < width
      · have hhigher := ih (width - (i + shift)) (by omega) (i + shift) rfl
        have hbit := congrArg (fun word : BitVec width ↦ word.getLsbD i) h
        simp only [BitVec.getLsbD_xor, BitVec.getLsbD_ushiftRight] at hbit
        rw [Nat.add_comm shift i, hhigher] at hbit
        exact Bool.xor_left_inj.mp hbit
      · have hbeyond : width ≤ i := Nat.le_of_not_lt hwidth
        simp [BitVec.getLsbD_of_ge, hbeyond]
  exact BitVec.eq_of_getLsbD_eq fun i _ ↦ hbits _ i rfl

theorem xorShift_injective (shift : UInt64) (hshift : 0 < shift.toNat % 64) :
    Function.Injective fun x : UInt64 ↦ x ^^^ (x >>> shift) := by
  intro x y h
  have hwords := congrArg UInt64.toBitVec h
  simp only [UInt64.toBitVec_xor, UInt64.toBitVec_shiftRight] at hwords
  apply UInt64.eq_of_toBitVec_eq
  refine xorShiftRight_injective hshift ?_
  simpa [BitVec.ushiftRight_eq', BitVec.toNat_umod] using hwords

/-- Multiplication by a word that has an inverse loses nothing. -/
theorem mul_injective_of_inverse {c d : UInt64} (hinverse : c * d = 1) :
    Function.Injective fun x : UInt64 ↦ x * c := by
  intro x y h
  have hback : ∀ z : UInt64, z * c * d = z := fun z ↦ by
    rw [UInt64.mul_assoc, hinverse, UInt64.mul_one]
  rw [← hback x, ← hback y]
  exact congrArg (· * d) h

theorem mix_injective : Function.Injective mix := by
  have hfirst := mul_injective_of_inverse
    (show (0xbf58476d1ce4e5b9 : UInt64) * 0x96de1b173f119089 = 1 by decide)
  have hsecond := mul_injective_of_inverse
    (show (0x94d049bb133111eb : UInt64) * 0x319642b2d24d8ec3 = 1 by decide)
  exact (xorShift_injective 31 (by decide)).comp (hsecond.comp
    ((xorShift_injective 27 (by decide)).comp (hfirst.comp (xorShift_injective 30 (by decide)))))

/-- The mix sends zero to zero, and no other word. -/
theorem mix_eq_zero_iff {x : UInt64} : mix x = 0 ↔ x = 0 := by
  have hzero : mix 0 = 0 := by decide
  constructor
  · intro h
    exact mix_injective (h.trans hzero.symm)
  · rintro rfl
    exact hzero

/-! ### The state of a seed -/

/-- Both halves of a word tell the word. -/
theorem eq_of_halves {a b : UInt64} (hlow : lowWord a = lowWord b)
    (hhigh : highWord a = highWord b) : a = b := by
  have hlow := congrArg UInt32.toNat hlow
  have hhigh := congrArg UInt32.toNat hhigh
  simp only [lowWord, highWord, UInt64.toNat_toUInt32, UInt64.toNat_shiftRight] at hlow hhigh
  have ha := a.toNat_lt
  have hb := b.toNat_lt
  apply UInt64.toNat_inj.mp
  simp [Nat.shiftRight_eq_div_pow] at hhigh
  omega

/-- The counters of the two outputs differ by the increment, so the outputs are not both zero. -/
theorem expand_ne_zero (seed : UInt64) : expand seed ≠ .zero := by
  intro h
  have hfirst : mix (seed + increment) = 0 :=
    eq_of_halves (congrArg StreamState.x h) (congrArg StreamState.y h)
  have hsecond : mix (seed + increment + increment) = 0 :=
    eq_of_halves (congrArg StreamState.z h) (congrArg StreamState.w h)
  rw [mix_eq_zero_iff] at hfirst hsecond
  rw [hfirst] at hsecond
  exact absurd hsecond (by decide)

theorem expand_injective : Function.Injective expand := by
  intro a b h
  have hfirst : mix (a + increment) = mix (b + increment) :=
    eq_of_halves (congrArg StreamState.x h) (congrArg StreamState.y h)
  exact (UInt64.add_left_inj increment).mp (mix_injective hfirst)

/-- Two integers have the same word where they agree modulo `2 ^ 64`. -/
theorem wordOf_eq_iff (a b : Int) : wordOf a = wordOf b ↔ a % 2 ^ 64 = b % 2 ^ 64 := by
  have hword : ∀ n : Int, ((wordOf n).toNat : Int) = n % 2 ^ 64 := by
    intro n
    have hbound : (n % (2 ^ 64 : Int)).toNat < 2 ^ 64 := by omega
    have hpattern : Word.pattern 64 n = (n % (2 ^ 64 : Int)).toNat := rfl
    rw [wordOf, hpattern, UInt64.toNat_ofNat', Nat.mod_eq_of_lt hbound]
    omega
  rw [← hword a, ← hword b]
  constructor
  · intro h
    rw [h]
  · intro h
    exact UInt64.toNat_inj.mp (Int.ofNat_inj.mp h)

theorem seedState_eq (seed : Int) : seedState seed = .ok (expand (wordOf seed)) :=
  if_neg (expand_ne_zero _)

/-- **Every integer seeds a state of four words that are not all zero**, and two integers seed the
same one exactly if they agree modulo `2 ^ 64`. Behind it, the output mix is a bijection of the
words that fixes only zero to zero. -/
theorem seeding_total_and_injective :
    (∀ seed : Int, ∃ state, seedState seed = .ok state ∧ state ≠ .zero ∧
      state.toList.length = 4 ∧ ∀ word ∈ state.toList, word.toNat < 2 ^ 32) ∧
    (∀ a b : Int, seedState a = seedState b ↔ a % 2 ^ 64 = b % 2 ^ 64) ∧
    Function.Bijective mix ∧ ∀ x, mix x = 0 ↔ x = 0 := by
  refine ⟨fun seed ↦ ?total, fun a b ↦ ?collisions, ?bijection, fun x ↦ mix_eq_zero_iff⟩
  case total =>
    exact ⟨_, seedState_eq seed, expand_ne_zero _, rfl, fun word _ ↦ word.toNat_lt⟩
  case collisions =>
    rw [seedState_eq, seedState_eq, ← wordOf_eq_iff, Except.ok.injEq]
    exact expand_injective.eq_iff
  case bijection =>
    have : Finite UInt64 :=
      Finite.of_injective UInt64.toFin fun _ _ ↦ UInt64.toFin_inj.mp
    exact Finite.injective_iff_bijective.mp mix_injective

/-- The first known output of the counter at zero. -/
example : splitMix 0 = (0x9e3779b97f4a7c15, 0xe220a8397b1dcdaf) := by decide

end ComputeArray.Random
