import ComputeArray.Proofs.Number.Dyadic
import ComputeArray.Random.Uniform

/-!
# Unit floats

The high bits of a word become the fraction of a float in the unit interval without any rounding,
though one is subtracted in the format: what is left keeps all its digits (`decode_unitFloat`). So
the words stand for all multiples of the last place, in their order, and never for one.
-/

set_option autoImplicit false

namespace ComputeArray.Random

open FloatFormat

variable {format : FloatFormat} {places : Nat}

/-- The high bits of a word as the fraction of a number below one, in binary places. -/
def fraction (places : Nat) (word : UInt32) : Rat :=
  (word.toNat >>> (32 - places) : Nat) / 2 ^ places

/-- One is taken away from a number that is no smaller. -/
theorem sub_one {rest : Rat} (h : 0 ≤ rest) :
    (FloatDatum.finite false (1 + rest)).sub (.ofInt 1) = .finite false rest := by
  have hsum : (1 + rest) + -1 = rest := by ring
  change FloatDatum.add (.finite false (1 + rest)) (.finite true ((1 : Nat) : Rat)) = _
  rw [Nat.cast_one]
  simp only [FloatDatum.add, Bool.false_eq_true, if_false, if_true, hsum, Bool.and_true]
  split
  · next hzero => rw [hzero]
  · rw [if_neg (not_lt.mpr h)]

/-! ### Fractions -/

theorem numerator_lt (hplaces : places ≤ 32) (word : UInt32) :
    word.toNat >>> (32 - places) < 2 ^ places := by
  rw [Nat.shiftRight_eq_div_pow]
  refine Nat.div_lt_of_lt_mul ?_
  rw [← Nat.pow_add, Nat.sub_add_cancel hplaces]
  exact word.toNat_lt

theorem fraction_nonneg (places : Nat) (word : UInt32) : 0 ≤ fraction places word := by
  unfold fraction
  positivity

theorem fraction_lt_one (hplaces : places ≤ 32) (word : UInt32) : fraction places word < 1 := by
  rw [fraction, div_lt_one (by positivity)]
  exact_mod_cast numerator_lt hplaces word

theorem fraction_mono (places : Nat) {first second : UInt32} (h : first ≤ second) :
    fraction places first ≤ fraction places second := by
  have hnumerator : first.toNat >>> (32 - places) ≤ second.toNat >>> (32 - places) := by
    rw [Nat.shiftRight_eq_div_pow, Nat.shiftRight_eq_div_pow]
    exact Nat.div_le_div_right (UInt32.le_iff_toNat_le.mp h)
  unfold fraction
  gcongr

theorem exists_fraction_eq (hplaces : places ≤ 32) {n : Nat} (h : n < 2 ^ places) :
    ∃ word, fraction places word = n / 2 ^ places := by
  have hlt : n * 2 ^ (32 - places) < 2 ^ 32 := by
    calc n * 2 ^ (32 - places) < 2 ^ places * 2 ^ (32 - places) :=
          Nat.mul_lt_mul_of_pos_right h (Nat.two_pow_pos _)
      _ = 2 ^ 32 := by rw [← Nat.pow_add, Nat.add_sub_cancel' hplaces]
  refine ⟨UInt32.ofNat (n * 2 ^ (32 - places)), ?_⟩
  rw [fraction, UInt32.toNat_ofNat', Nat.mod_eq_of_lt hlt, Nat.shiftRight_eq_div_pow,
    Nat.mul_div_cancel _ (Nat.two_pow_pos _)]

/-! ### Patterns -/

section Patterns

variable (hprecision : 0 < format.precision) (hwidth : format.precision ≤ 33)
include hprecision hwidth

theorem high_bits_lt (word : UInt32) :
    word.toNat >>> (32 - (format.precision - 1)) < twoTo (format.precision - 1) :=
  numerator_lt (by omega) word

/-- The high bits of a word lie below the exponent of one. -/
theorem transplant_eq (hbias : 0 < format.bias) (word : UInt32) :
    transplant format word = (format.bias - 1) * twoTo (format.precision - 1) +
      (twoTo (format.precision - 1) + word.toNat >>> (32 - (format.precision - 1))) := by
  have hshift : 33 - format.precision = 32 - (format.precision - 1) := by omega
  obtain ⟨bias, hpred⟩ := Nat.exists_eq_succ_of_ne_zero hbias.ne'
  rw [transplant, hshift, Nat.or_comm,
    ← Nat.shiftLeft_add_eq_or_of_lt (high_bits_lt hprecision hwidth word), Nat.shiftLeft_eq, hpred,
    Nat.succ_sub_one, Nat.succ_mul, Nat.add_assoc]
  rfl

/-- Under the exponent of one, the high bits make a number between one and two. -/
theorem decode_transplant (hbias : 0 < format.bias) (word : UInt32) :
    format.decode (transplant format word) =
      .finite false (1 + fraction (format.precision - 1) word) := by
  have hlt := high_bits_lt hprecision hwidth word
  have hunit := twoTo_precision hprecision
  have hsplit := transplant_eq hprecision hwidth hbias word
  have hfinite : transplant format word < format.infinity := by
    calc transplant format word
        < (format.bias - 1) * twoTo (format.precision - 1) + twoTo (format.precision - 1) * 2 := by
          omega
      _ = (format.bias - 1 + 2) * twoTo (format.precision - 1) := by ring
      _ ≤ format.infinity := Nat.mul_le_mul_right _ (by have := bias_lt hbias; omega)
  have hexponent : format.quantum + (format.bias - 1 : Nat) =
      -((format.precision - 1 : Nat) : Int) := by
    have hquantum : format.quantum = 2 - (format.bias : Int) - (format.precision : Int) := rfl
    omega
  rw [hsplit] at hfinite
  have hdecode :=
    @decode_normal format false _ _ hprecision (Nat.le_add_right _ _) (by omega) hfinite
  rw [← hsplit, hexponent, pow2_neg, Nat.cast_add, cast_twoTo] at hdecode
  refine (congrArg format.decode (Nat.zero_add _).symm).trans (hdecode.trans ?_)
  rw [fraction]
  congr 1
  field_simp

/-- Taking one away leaves the fraction, and it needs no rounding. -/
theorem decode_unitFloat (hbias : format.precision - 1 < format.bias) (word : UInt32) :
    format.decode (unitFloat format word) =
      .finite false (fraction (format.precision - 1) word) := by
  have hlt := high_bits_lt hprecision hwidth word
  have hunit := twoTo_precision hprecision
  rw [unitFloat, decode_transplant hprecision hwidth (Nat.zero_lt_of_lt hbias),
    sub_one (fraction_nonneg _ word)]
  exact decode_encode_dyadic false hprecision (by omega) hlt hbias

end Patterns

/-! ### Words -/

/-- The floats of a format the words become are their fractions in so many binary places. -/
structure Exact (format : FloatFormat) (places : Nat) : Prop where
  fits : ∀ word, unitFloat format word < twoTo format.width
  value : ∀ word, format.decode (unitFloat format word) = .finite false (fraction places word)
  /-- No other pattern stands for the fraction. -/
  only : ∀ word bits, bits < twoTo format.width →
    format.decode bits = .finite false (fraction places word) → bits = unitFloat format word
  /-- The number that is returned for a word. -/
  returned : ∀ word : UInt32, ∃ number, number.datum = .finite false (fraction places word) ∧
    unitFloats format (.int word.toNat) = .ok (.table (.float format) [] [.float number])
  /-- The table that is returned for a sequence or a table of words. -/
  table : ∀ value shape words, value.nestedShape = .ok shape →
    ElementType.u32.storeAll value = .ok words → ∃ numbers : List Double,
      unitFloats format value = .ok (.table (.float format) shape (numbers.map .float)) ∧
        numbers.map Double.datum =
          words.map fun word ↦ .finite false (fraction places word.toUInt32)
  below : ∀ word, ∃ number, (format.decode (unitFloat format word)).value? = some number ∧
    0 ≤ number ∧ number < 1
  mono : ∀ first second, first ≤ second →
    ∃ low high, (format.decode (unitFloat format first)).value? = some low ∧
      (format.decode (unitFloat format second)).value? = some high ∧ low ≤ high
  multiples : ∀ n : Nat, n < 2 ^ places →
    ∃ word, format.decode (unitFloat format word) = .finite false (n / 2 ^ places)

theorem narrow_finite (negative : Bool) (value : Rat) :
    (FloatDatum.finite negative value).Narrow := nofun

/-- A double holds a fraction as it is. -/
theorem datum_fraction (hplaces : places ≤ 32) (word : UInt32) :
    (Double.ofDatum (.finite false (fraction places word))).datum =
      .finite false (fraction places word) := by
  rw [Double.datum_ofDatum (narrow_finite _ _)]
  have hlt := numerator_lt hplaces word
  have hwide : 2 ^ places ≤ twoTo 32 := Nat.pow_le_pow_right (by decide) hplaces
  have hbias : (32 : Nat) < double.bias := by decide
  have hdouble : twoTo 32 ≤ twoTo double.precision := Nat.pow_le_pow_right (by decide) (by decide)
  exact decode_encode_dyadic false (by decide) (by omega) hlt (by omega)

theorem storeAll_word (word : UInt32) :
    ElementType.u32.storeAll (.int word.toNat) = .ok [word.toNat] := by
  have hlt : word.toNat < twoTo 32 := word.toNat_lt
  generalize word.toNat = n at hlt
  have hholds : ElementType.u32.holds n = true := by
    rw [ElementType.holds, Word.holdsUnsigned, Bool.and_eq_true, decide_eq_true_iff,
      decide_eq_true_iff]
    omega
  have hbits : ElementType.wordBits n = n := by
    rw [ElementType.wordBits, Word.pattern, ← Int.natCast_emod, Int.toNat_natCast,
      Nat.mod_eq_of_lt hlt]
  have hstore : ElementType.u32.store (.int n) = .ok n := by
    have hint : ElementType.u32.storeInt n = .ok n := by
      rw [ElementType.storeInt, if_pos hholds, hbits]
    have hread : (Value.int n).toInt = .ok (n : Int) := rfl
    have hscalar : ElementType.u32.store (.int n) = (Value.int n).toInt.bind
        ElementType.u32.storeInt := by
      simp only [ElementType.store, ElementType.storeScalar, ElementType.isFloat,
        Bool.false_eq_true, if_false]
    rw [hscalar, hread, Except.bind, hint]
  simp only [ElementType.storeAll, Value.nestedShape, Value.outline, Value.leaves,
    List.mapM_cons, hstore]
  rfl

/-- A format whose significand is no wider than a word, with exponents for all its places. -/
theorem exact_of_precision (hprecision : 1 < format.precision) (hwidth : format.precision ≤ 33)
    (hbias : format.precision - 1 < format.bias) : Exact format (format.precision - 1) := by
  have hplaces : format.precision - 1 ≤ 32 := by omega
  have hvalue (word : UInt32) := decode_unitFloat (by omega) hwidth hbias word
  have hfits (word : UInt32) : unitFloat format word < twoTo format.width := by
    rw [unitFloat, decode_transplant (by omega) hwidth (by omega),
      sub_one (fraction_nonneg _ word)]
    exact encode_lt hprecision (by omega) (narrow_finite _ _)
  have htable (value : Value) (shape words) (hshape : value.nestedShape = .ok shape)
      (hwords : ElementType.u32.storeAll value = .ok words) : ∃ numbers : List Double,
      unitFloats format value = .ok (.table (.float format) shape (numbers.map .float)) ∧
        numbers.map Double.datum =
          words.map fun word ↦ .finite false (fraction (format.precision - 1) word.toUInt32) := by
    refine ⟨words.map fun word ↦ .ofDatum (format.decode (unitFloat format word.toUInt32)), ?_, ?_⟩
    · rw [unitFloats, hshape, hwords, List.map_map]
      rfl
    · rw [List.map_map]
      refine List.map_congr_left fun word _ ↦ ?_
      rw [Function.comp, hvalue, datum_fraction hplaces]
  exact {
    fits := hfits
    value := hvalue
    only := fun word bits hbits hdecode ↦
      decode_injective (by omega) hbits (hfits word) hdecode (hvalue word)
    returned := fun word ↦ by
      obtain ⟨numbers, hnumbers, hdata⟩ := htable _ _ _ rfl (storeAll_word word)
      obtain ⟨number, rfl, hdatum⟩ := List.map_eq_singleton_iff.mp hdata
      have hword : word.toNat.toUInt32 = word := UInt32.ofNat_toNat
      dsimp only at hdatum
      rw [hword] at hdatum
      exact ⟨number, hdatum, hnumbers⟩
    table := htable
    below := fun word ↦ ⟨_, by rw [hvalue]; rfl, fraction_nonneg _ word,
      fraction_lt_one hplaces word⟩
    mono := fun first second hle ↦ ⟨_, _, by rw [hvalue]; rfl, by rw [hvalue]; rfl,
      fraction_mono _ hle⟩
    multiples := fun n hn ↦ by
      obtain ⟨word, hword⟩ := exists_fraction_eq hplaces hn
      exact ⟨word, by rw [hvalue, hword]⟩ }

/-- The floats of words in single precision have 23 binary places, those in half precision ten. -/
theorem unitFloats_exact : Exact .single 23 ∧ Exact .half 10 :=
  ⟨exact_of_precision (by decide) (by decide) (by decide),
    exact_of_precision (by decide) (by decide) (by decide)⟩

end ComputeArray.Random
