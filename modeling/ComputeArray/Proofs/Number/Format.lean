import ComputeArray.Number.Double
import Mathlib.Algebra.Order.Ring.Cast
import Mathlib.Algebra.Order.Ring.Rat
import Mathlib.Tactic.Ring

/-!
# Patterns of numbers

A pattern is a sign and a magnitude, and a magnitude an exponent and a fraction (`decode_sign_add`).
Whatever is encoded fits the format (`encode_lt`). A whole number is encoded as a whole number: what
has too many digits for a significand is rounded to a multiple of a power of two, and what has not
is exact (`whole_or_infinite`).
-/

set_option autoImplicit false

namespace ComputeArray

/-- The payload of a NaN is a fraction of a double. -/
def FloatDatum.Narrow (datum : FloatDatum) : Prop :=
  ∀ negative payload, datum = .nan negative payload → payload < twoTo 52

theorem twoTo_eq (n : Nat) : twoTo n = 2 ^ n := rfl

theorem FloatDatum.narrow_ofInt (n : Int) : (FloatDatum.ofInt n).Narrow := nofun

theorem twoTo_add (m n : Nat) : twoTo (m + n) = twoTo m * twoTo n := Nat.pow_add 2 m n

namespace FloatFormat

variable {format : FloatFormat} {bits magnitude : Nat} {negative : Bool}

/-! ### Signs and magnitudes -/

theorem pow2_nonneg (e : Int) : 0 ≤ pow2 e := by
  unfold pow2
  split
  · exact Nat.cast_nonneg _
  · exact Rat.mkRat_nonneg (by decide) _

theorem finite_nonneg {value : Rat} (h : format.decode bits = .finite negative value) :
    0 ≤ value := by
  unfold decode at h
  dsimp only at h
  split at h
  · cases h
  · split at h
    · cases h
    · split at h <;> cases h <;> exact mul_nonneg (Nat.cast_nonneg _) (pow2_nonneg _)

/-- Behind infinity there is room for the fractions of the NaNs. -/
theorem infinity_add (hprecision : 0 < format.precision) :
    format.infinity + twoTo (format.precision - 1) = format.signBit := by
  have hpos : 0 < twoTo format.exponentBits := Nat.two_pow_pos _
  have hwidth : format.width - 1 = format.exponentBits + (format.precision - 1) := by
    unfold width
    omega
  rw [infinity, signBit, hwidth, ← Nat.succ_mul, Nat.succ_eq_add_one, Nat.sub_add_cancel hpos]
  exact (twoTo_add _ _).symm

theorem infinity_lt_signBit (hprecision : 0 < format.precision) :
    format.infinity < format.signBit := by
  have hpos : 0 < twoTo (format.precision - 1) := Nat.two_pow_pos _
  have hsum := infinity_add hprecision
  omega

theorem signBit_add_signBit (hprecision : 0 < format.precision) :
    format.signBit + format.signBit = twoTo format.width := by
  have hwidth : format.width = format.width - 1 + 1 := by
    unfold width
    omega
  rw [signBit, hwidth, Nat.add_sub_cancel, ← Nat.mul_two]
  exact (Nat.pow_succ ..).symm

/-- A pattern is read by its sign and its magnitude. -/
theorem decode_sign_add (hmagnitude : magnitude < format.signBit) :
    format.decode ((if negative then format.signBit else 0) + magnitude) =
      if format.infinity < magnitude then
        .nan negative (magnitude % twoTo (format.precision - 1) * format.payloadUnit)
      else if magnitude = format.infinity then .infinite negative
      else if magnitude / twoTo (format.precision - 1) = 0 then
        .finite negative ((magnitude % twoTo (format.precision - 1) : Nat) * pow2 format.quantum)
      else
        .finite negative ((magnitude % twoTo (format.precision - 1) +
            twoTo (format.precision - 1) : Nat) * pow2 (format.quantum +
              (magnitude / twoTo (format.precision - 1) - 1 : Nat))) := by
  have hpos : 0 < format.signBit := Nat.two_pow_pos _
  have hsign : decide (((if negative then format.signBit else 0) + magnitude) / format.signBit % 2
      = 1) = negative := by
    cases negative
    · simp [Nat.div_eq_of_lt hmagnitude]
    · simp [Nat.add_div_left _ hpos, Nat.div_eq_of_lt hmagnitude]
  have hrest : ((if negative then format.signBit else 0) + magnitude) % format.signBit =
      magnitude := by
    cases negative <;> simp [Nat.mod_eq_of_lt hmagnitude]
  unfold decode
  simp only [hsign, hrest]

/-! ### Widths -/

theorem roundRatio_le (num den : Nat) : format.roundRatio num den ≤ format.infinity := by
  unfold roundRatio
  split
  · exact Nat.zero_le _
  · exact Nat.min_le_left _ _

/-- The NaNs of a format have their fractions as payload. -/
theorem narrow_decode (hprecision : 0 < format.precision) (hdouble : format.precision ≤ 53)
    (bits : Nat) : (format.decode bits).Narrow := by
  intro negative payload h
  unfold decode at h
  dsimp only at h
  split at h
  · cases h
    have hwidth : 52 = format.precision - 1 + (53 - format.precision) := by omega
    rw [payloadUnit, hwidth, twoTo_add]
    exact Nat.mul_lt_mul_of_pos_right (Nat.mod_lt _ (Nat.two_pow_pos _)) (Nat.two_pow_pos _)
  · split at h
    · cases h
    · split at h <;> cases h

/-- What is encoded fits the format. -/
theorem encode_lt (hprecision : 1 < format.precision) (hdouble : format.precision ≤ 53)
    {datum : FloatDatum} (hnarrow : datum.Narrow) : format.encode datum < twoTo format.width := by
  have hsign (negative : Bool) (magnitude : Nat) (h : magnitude < format.signBit) :
      (if negative then format.signBit else 0) + magnitude < twoTo format.width := by
    rw [← signBit_add_signBit (by omega)]
    split <;> omega
  have hinfinity : format.infinity + twoTo (format.precision - 1) = format.signBit :=
    infinity_add (by omega)
  cases datum with
  | nan negative payload =>
    have hlt := hnarrow negative payload rfl
    have hone : 1 < twoTo (format.precision - 1) := Nat.one_lt_two_pow (by omega)
    have hfraction : payload / format.payloadUnit < twoTo (format.precision - 1) := by
      have hwidth : 52 = 53 - format.precision + (format.precision - 1) := by omega
      rw [hwidth, twoTo_add] at hlt
      exact Nat.div_lt_of_lt_mul hlt
    rw [encode, Nat.add_assoc]
    exact hsign negative _ (by omega)
  | infinite negative => exact hsign negative _ (infinity_lt_signBit (by omega))
  | finite negative value =>
    exact hsign negative _ ((roundRatio_le _ _).trans_lt (infinity_lt_signBit (by omega)))

/-! ### Whole numbers -/

theorem pow2_natCast (e : Nat) : pow2 e = (twoTo e : Nat) := if_pos (Int.natCast_nonneg e)

/-- Scaled up and down again by the same power of two. -/
theorem mul_pow2_neg (n e : Nat) : ((n * twoTo e : Nat) : Rat) * pow2 (-(e : Int)) = n := by
  rcases Nat.eq_zero_or_pos e with rfl | hpos
  · rw [Nat.cast_zero, Int.neg_zero]
    exact (congrArg _ (pow2_natCast 0)).trans (by simp [twoTo])
  · have hne : ((twoTo e : Nat) : Rat) ≠ 0 := Nat.cast_ne_zero.mpr (Nat.two_pow_pos e).ne'
    have hnegative : ¬ (0 : Int) ≤ -(e : Int) := by omega
    have habs : (- -(e : Int)).toNat = e := by omega
    rw [pow2, if_neg hnegative, habs, Rat.mkRat_eq_div, Nat.cast_mul, Int.cast_one, mul_assoc,
      mul_one_div_cancel hne, mul_one]

theorem binaryExponent_one {num : Nat} (hnum : num ≠ 0) : binaryExponent num 1 = Nat.log2 num := by
  have hle : twoTo (Nat.log2 num) ≤ num := Nat.log2_self_le hnum
  have hone : Nat.log2 1 = 0 := by decide
  unfold binaryExponent
  simp only [hone, Nat.cast_zero, Int.sub_zero, Int.toNat_natCast, Nat.one_mul]
  rw [if_neg]
  have hzero : (-(Nat.log2 num : Int)).toNat = 0 := by omega
  rw [hzero]
  simpa [twoTo] using hle

/-- A significand is read off in the scale of the number. -/
theorem roundRatio_eq {num den : Nat} {scale : Int} (hnum : num ≠ 0)
    (hscale : max (binaryExponent num den - (format.precision - 1 : Nat)) format.quantum = scale) :
    format.roundRatio num den = min format.infinity
      ((scale - format.quantum).toNat * twoTo (format.precision - 1) +
        nearest (num * twoTo (-scale).toNat) (den * twoTo scale.toNat)) := by
  subst hscale
  exact if_neg hnum

theorem le_nearest (num den : Nat) : num / den ≤ nearest num den := by
  unfold nearest
  dsimp only
  split <;> omega

theorem nearest_one (num : Nat) : nearest num 1 = num := by
  unfold nearest
  simp [Nat.mod_one]

section Doubles

variable {num : Nat}

theorem double_parts : double.precision = 53 ∧ double.quantum = -1074 ∧
    double.infinity = 2047 * 2 ^ 52 ∧ double.signBit = 2 ^ 63 := by
  decide

/-- Numbers of more digits than a significand has are at least as large in their exponent. -/
theorem le_roundRatio (h : 2 ^ 52 ≤ num) : 1075 * 2 ^ 52 ≤ double.roundRatio num 1 := by
  have hnum : num ≠ 0 := by omega
  have hlog : 52 ≤ Nat.log2 num := (Nat.le_log2 hnum).mpr h
  obtain ⟨k, hk⟩ := Nat.exists_eq_add_of_le hlog
  obtain ⟨hprecision, hquantum, hinfinity, -⟩ := double_parts
  have hscale : max (binaryExponent num 1 - (double.precision - 1 : Nat)) double.quantum = k := by
    rw [binaryExponent_one hnum, hk, hprecision, hquantum]
    omega
  have hself : twoTo 52 * twoTo k ≤ num := by
    rw [← twoTo_add, ← hk]
    exact Nat.log2_self_le hnum
  have hle : twoTo 52 ≤ nearest num (twoTo k) :=
    ((Nat.le_div_iff_mul_le (Nat.two_pow_pos k)).mpr hself).trans (le_nearest _ _)
  have hzero : twoTo (-(k : Int)).toNat = 1 := by
    rw [Int.toNat_of_nonpos (by omega)]
    rfl
  have hshift : ((k : Int) - double.quantum).toNat = k + 1074 := by
    rw [hquantum]
    omega
  have hpower : twoTo (double.precision - 1) = 2 ^ 52 := by rw [hprecision, twoTo_eq]
  rw [roundRatio_eq hnum hscale, hzero, hshift, hpower, hinfinity, Int.toNat_natCast, Nat.mul_one,
    Nat.one_mul]
  rw [twoTo_eq 52] at hle
  refine Nat.le_min.mpr ⟨Nat.mul_le_mul_right _ (by decide), ?_⟩
  calc 1075 * 2 ^ 52 = 1074 * 2 ^ 52 + 2 ^ 52 := by ring
    _ ≤ (k + 1074) * 2 ^ 52 + nearest num (twoTo k) :=
      Nat.add_le_add (Nat.mul_le_mul_right _ (Nat.le_add_left _ _)) hle

/-- Numbers of fewer digits are exact. -/
theorem roundRatio_of_lt (hnum : num ≠ 0) (h : num < 2 ^ 52) :
    ∃ k, 0 < k ∧ k ≤ 52 ∧ 2 ^ 52 ≤ num * twoTo k ∧ num * twoTo k < 2 ^ 53 ∧
      double.roundRatio num 1 = (1074 - k) * 2 ^ 52 + num * twoTo k := by
  have hlog : Nat.log2 num < 52 := (Nat.log2_lt hnum).mpr h
  obtain ⟨k, hk⟩ := Nat.exists_eq_add_of_le hlog.le
  obtain ⟨hprecision, hquantum, hinfinity, -⟩ := double_parts
  have hlow : 2 ^ 52 ≤ num * twoTo k := by
    have hself : twoTo (Nat.log2 num) * twoTo k ≤ num * twoTo k :=
      Nat.mul_le_mul_right _ (Nat.log2_self_le hnum)
    rwa [← twoTo_add, ← hk, twoTo_eq 52] at hself
  have hhigh : num * twoTo k < 2 ^ 53 := by
    have hself : num * twoTo k < twoTo (Nat.log2 num + 1) * twoTo k :=
      Nat.mul_lt_mul_of_pos_right Nat.lt_log2_self (Nat.two_pow_pos k)
    rwa [← twoTo_add, Nat.add_right_comm, ← hk, twoTo_eq 53] at hself
  have hscale : max (binaryExponent num 1 - (double.precision - 1 : Nat)) double.quantum = -k := by
    rw [binaryExponent_one hnum, hprecision, hquantum]
    omega
  have hzero : twoTo (-(k : Int)).toNat = 1 := by
    rw [Int.toNat_of_nonpos (by omega)]
    rfl
  have hback : (- -(k : Int)).toNat = k := by omega
  have hshift : (-(k : Int) - double.quantum).toNat = 1074 - k := by
    rw [hquantum]
    omega
  have hpower : twoTo (double.precision - 1) = 2 ^ 52 := by rw [hprecision, twoTo_eq]
  refine ⟨k, by omega, by omega, hlow, hhigh, ?_⟩
  rw [roundRatio_eq hnum hscale, hzero, hback, hshift, hpower, hinfinity, Nat.one_mul, nearest_one]
  exact Nat.min_eq_right (by omega)

/-- Of a whole number, a whole number is read, or infinity. -/
theorem whole_or_infinite (negative : Bool) (num : Nat) :
    (∃ value, double.decode ((if negative then double.signBit else 0) + double.roundRatio num 1) =
      .finite negative value ∧ value.den = 1) ∨
    double.decode ((if negative then double.signBit else 0) + double.roundRatio num 1) =
      .infinite negative := by
  obtain ⟨hprecision, hquantum, hinfinity, hsign⟩ := double_parts
  have hle : double.roundRatio num 1 ≤ double.infinity := roundRatio_le num 1
  have hpower : twoTo (double.precision - 1) = 2 ^ 52 := by rw [hprecision, twoTo_eq]
  rw [decode_sign_add (by omega), hpower, hquantum, if_neg (Nat.not_lt.mpr hle)]
  by_cases hinfinite : double.roundRatio num 1 = double.infinity
  · exact .inr (if_pos hinfinite)
  rw [if_neg hinfinite]
  refine .inl ?_
  by_cases hnum : num = 0
  · subst hnum
    have hzero : double.roundRatio 0 1 = 0 := if_pos rfl
    rw [hzero, Nat.zero_mod, Nat.zero_div, if_pos rfl, Nat.cast_zero, Rat.zero_mul]
    exact ⟨0, rfl, rfl⟩
  rcases Nat.lt_or_ge num (2 ^ 52) with hlt | hge
  · obtain ⟨k, hk, hk', hlow, hhigh, hround⟩ := roundRatio_of_lt hnum hlt
    have hexponent : double.roundRatio num 1 / 2 ^ 52 = 1075 - k := by omega
    have hfraction : double.roundRatio num 1 % 2 ^ 52 + 2 ^ 52 = num * twoTo k := by omega
    have hscale : -1074 + ((1075 - k - 1 : Nat) : Int) = -(k : Int) := by omega
    rw [hexponent, hfraction, if_neg (by omega), hscale, mul_pow2_neg]
    exact ⟨num, rfl, Rat.den_natCast num⟩
  · have hround := le_roundRatio hge
    obtain ⟨e, he⟩ : ∃ e, double.roundRatio num 1 / 2 ^ 52 = 1075 + e :=
      Nat.exists_eq_add_of_le (by omega)
    have hscale : -1074 + ((1075 + e - 1 : Nat) : Int) = (e : Int) := by omega
    rw [he, if_neg (by omega), hscale, pow2_natCast, ← Nat.cast_mul]
    exact ⟨_, rfl, Rat.den_natCast _⟩

end Doubles

end FloatFormat

namespace Double

open FloatFormat

theorem datum_ofDatum {datum : FloatDatum} (hnarrow : datum.Narrow) :
    (ofDatum datum).datum = double.decode (double.encode datum) := by
  have hlt : double.encode datum < 2 ^ 64 := encode_lt (by decide) (by decide) hnarrow
  rw [Double.datum, ofDatum, Nat.toUInt64_eq, UInt64.toNat_ofNat', Nat.mod_eq_of_lt hlt]

/-- The double nearest to an integer is whole. -/
theorem isWhole_of_ofInt? {n : Int} {x : Double} (h : ofInt? n = some x) : x.isWhole = true := by
  have hdatum : (ofDatum (.ofInt n)).datum = double.decode
      ((if decide (n < 0) then double.signBit else 0) + double.roundRatio n.natAbs 1) := by
    rw [datum_ofDatum (FloatDatum.narrow_ofInt n), FloatDatum.ofInt, encode, Rat.num_natCast,
      Rat.den_natCast, Int.toNat_natCast]
  unfold ofInt? at h
  dsimp only at h
  unfold isWhole
  rcases whole_or_infinite (decide (n < 0)) n.natAbs with ⟨value, hvalue, hden⟩ | hinfinite
  · rw [hdatum, hvalue] at h
    cases h
    rw [hdatum, hvalue]
    exact decide_eq_true hden
  · rw [hdatum, hinfinite] at h
    cases h

end Double

end ComputeArray
