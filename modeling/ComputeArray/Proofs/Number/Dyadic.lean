import ComputeArray.Proofs.Number.Format
import Mathlib.Algebra.Order.Field.Basic
import Mathlib.Algebra.Order.Field.Rat
import Mathlib.Data.Rat.Lemmas
import Mathlib.Data.Nat.Prime.Basic
import Mathlib.Tactic.FieldSimp
import Mathlib.Tactic.NormNum

/-!
# Dyadic fractions

A fraction whose denominator is a power of two keeps its value through encoding and decoding, as
long as its numerator fits the significand and its denominator is none of the smallest
(`decode_encode_dyadic`). A pattern is told by the finite number it stands for
(`decode_injective`).
-/

set_option autoImplicit false

namespace ComputeArray.FloatFormat

variable {format : FloatFormat} {num den places : Nat}

/-! ### Scales -/

theorem cast_twoTo (n : Nat) : ((twoTo n : Nat) : Rat) = 2 ^ n := Nat.cast_pow 2 n

theorem pow2_neg (e : Nat) : pow2 (-(e : Int)) = 1 / 2 ^ e := by
  have hscaled := mul_pow2_neg 1 e
  rw [Nat.one_mul, cast_twoTo, Nat.cast_one] at hscaled
  rw [eq_div_iff (by positivity), mul_comm]
  exact hscaled

theorem binaryExponent_dyadic (hnum : num ≠ 0) :
    binaryExponent num (twoTo places) = (Nat.log2 num : Int) - places := by
  have hself : twoTo (Nat.log2 num) ≤ num := Nat.log2_self_le hnum
  have hlog : Nat.log2 (twoTo places) = places := Nat.log2_two_pow
  unfold binaryExponent
  dsimp only
  rw [hlog, if_neg]
  rw [Nat.not_lt]
  rcases Nat.le_total (Nat.log2 num) places with hle | hge
  · obtain ⟨gap, rfl⟩ := Nat.exists_eq_add_of_le hle
    have hup : ((Nat.log2 num : Int) - (Nat.log2 num + gap : Nat)).toNat = 0 := by omega
    have hdown : (-((Nat.log2 num : Int) - (Nat.log2 num + gap : Nat))).toNat = gap := by omega
    rw [hup, hdown, twoTo_add, twoTo_eq 0, Nat.pow_zero, Nat.mul_one]
    exact Nat.mul_le_mul_right _ hself
  · obtain ⟨gap, hgap⟩ := Nat.exists_eq_add_of_le hge
    have hup : ((Nat.log2 num : Int) - places).toNat = gap := by omega
    have hdown : (-((Nat.log2 num : Int) - places)).toNat = 0 := by omega
    rw [hup, hdown, ← twoTo_add, ← hgap, twoTo_eq 0, Nat.pow_zero, Nat.mul_one]
    exact hself

theorem nearest_mul_right (n : Nat) (hden : 0 < den) : nearest (n * den) den = n := by
  unfold nearest
  rw [Nat.mul_div_cancel _ hden, Nat.mul_mod_left]
  exact if_neg (by omega)

/-! ### Normal numbers -/

theorem twoTo_precision (hprecision : 0 < format.precision) :
    twoTo format.precision = twoTo (format.precision - 1) * 2 := by
  rw [twoTo_eq, twoTo_eq, ← Nat.pow_succ, Nat.succ_eq_add_one, Nat.sub_add_cancel hprecision]

/-- The exponent of one is not the last. -/
theorem bias_lt (hbias : 0 < format.bias) : format.bias < twoTo format.exponentBits - 1 := by
  have hdef : format.bias = 2 ^ (format.exponentBits - 1) - 1 := rfl
  cases hbits : format.exponentBits with
  | zero => simp [hdef, hbits] at hbias
  | succ bits =>
    rw [hbits, Nat.add_sub_cancel] at hdef
    rw [twoTo_eq, Nat.pow_succ]
    omega

/-- A significand with its leading bit is read off behind an exponent. -/
theorem decode_normal {negative : Bool} {exponent significand : Nat}
    (hprecision : 0 < format.precision) (hlow : twoTo (format.precision - 1) ≤ significand)
    (hhigh : significand < twoTo format.precision)
    (hfinite : exponent * twoTo (format.precision - 1) + significand < format.infinity) :
    format.decode ((if negative then format.signBit else 0) +
        (exponent * twoTo (format.precision - 1) + significand)) =
      .finite negative (significand * pow2 (format.quantum + exponent)) := by
  have hdouble := twoTo_precision hprecision
  have hpos : 0 < twoTo (format.precision - 1) := Nat.two_pow_pos _
  obtain ⟨fraction, rfl⟩ := Nat.exists_eq_add_of_le hlow
  set unit := twoTo (format.precision - 1) with hunit
  have hsplit : exponent * unit + (unit + fraction) = fraction + unit * (exponent + 1) := by ring
  have hfraction : fraction < unit := by omega
  have hquotient : (exponent * unit + (unit + fraction)) / unit = exponent + 1 := by
    rw [hsplit, Nat.add_mul_div_left _ _ hpos, Nat.div_eq_of_lt hfraction, Nat.zero_add]
  have hrest : (exponent * unit + (unit + fraction)) % unit = fraction := by
    rw [hsplit, Nat.add_mul_mod_self_left, Nat.mod_eq_of_lt hfraction]
  rw [decode_sign_add (hfinite.trans (infinity_lt_signBit hprecision)), ← hunit, hquotient, hrest,
    if_neg hfinite.asymm, if_neg hfinite.ne, if_neg (Nat.succ_ne_zero _), Nat.add_sub_cancel,
    Nat.add_comm fraction]

/-! ### Encoding -/

/-- A dyadic fraction below one is encoded by its numerator, shifted up to the leading bit. -/
theorem roundRatio_dyadic (hprecision : 0 < format.precision) (hnum : num ≠ 0)
    (hfits : num < twoTo format.precision) (hbelow : num < twoTo places)
    (hplaces : places < format.bias) :
    ∃ exponent shift : Nat, format.roundRatio num (twoTo places) =
        exponent * twoTo (format.precision - 1) + num * twoTo shift ∧
      twoTo (format.precision - 1) ≤ num * twoTo shift ∧
      num * twoTo shift < twoTo format.precision ∧
      exponent * twoTo (format.precision - 1) + num * twoTo shift < format.infinity ∧
      format.quantum + exponent = -((places + shift : Nat) : Int) := by
  have hlog : Nat.log2 num < format.precision := (Nat.log2_lt hnum).mpr hfits
  have hlogBelow : Nat.log2 num < places := (Nat.log2_lt hnum).mpr hbelow
  obtain ⟨shift, hshift⟩ := Nat.exists_eq_add_of_le (Nat.le_sub_one_of_lt hlog)
  have hquantum : format.quantum = 2 - (format.bias : Int) - (format.precision : Int) := rfl
  have hlow : twoTo (format.precision - 1) ≤ num * twoTo shift := by
    rw [hshift, twoTo_add]
    exact Nat.mul_le_mul_right _ (Nat.log2_self_le hnum)
  have hhigh : num * twoTo shift < twoTo format.precision := by
    have hself : num * twoTo shift < twoTo (Nat.log2 num + 1) * twoTo shift :=
      Nat.mul_lt_mul_of_pos_right Nat.lt_log2_self (Nat.two_pow_pos shift)
    rwa [← twoTo_add, Nat.add_right_comm, ← hshift, Nat.sub_add_cancel hprecision] at hself
  have hscale : max (binaryExponent num (twoTo places) - (format.precision - 1 : Nat))
      format.quantum = -((places + shift : Nat) : Int) := by
    rw [binaryExponent_dyadic hnum]
    omega
  set exponent := (-((places + shift : Nat) : Int) - format.quantum).toNat with hexponent
  have hsum : format.quantum + exponent = -((places + shift : Nat) : Int) := by omega
  have hfinite : exponent * twoTo (format.precision - 1) + num * twoTo shift <
      format.infinity := by
    have hexponent : exponent + 2 ≤ format.bias := by omega
    calc exponent * twoTo (format.precision - 1) + num * twoTo shift
        < exponent * twoTo (format.precision - 1) + twoTo (format.precision - 1) * 2 := by
          rw [← twoTo_precision hprecision]
          exact Nat.add_lt_add_left hhigh _
      _ = (exponent + 2) * twoTo (format.precision - 1) := by ring
      _ ≤ format.infinity :=
          Nat.mul_le_mul_right _ (hexponent.trans (bias_lt (Nat.zero_lt_of_lt hplaces)).le)
  refine ⟨exponent, shift, ?_, hlow, hhigh, hfinite, hsum⟩
  have hdown : (-((places + shift : Nat) : Int)).toNat = 0 := by omega
  have hup : (-(-((places + shift : Nat) : Int))).toNat = shift + places := by omega
  have hpos : 0 < twoTo places := Nat.two_pow_pos _
  rw [roundRatio_eq hnum hscale, ← hexponent, hdown, hup, twoTo_eq 0, Nat.pow_zero, Nat.mul_one,
    twoTo_add, ← Nat.mul_assoc, nearest_mul_right _ hpos]
  exact Nat.min_eq_right hfinite.le

/-- The parts of a dyadic fraction in lowest terms. -/
theorem exists_dyadic_parts (hnum : num ≠ 0) :
    ∃ top bottom : Nat, ((num : Rat) / 2 ^ places).num = top ∧
      ((num : Rat) / 2 ^ places).den = twoTo bottom ∧ top ≠ 0 ∧ top ≤ num ∧ bottom ≤ places ∧
      (top : Rat) / 2 ^ bottom = num / 2 ^ places := by
  have hpositive : 0 < num := Nat.pos_of_ne_zero hnum
  have hpos : 0 < (num : Rat) / 2 ^ places := by positivity
  set value := (num : Rat) / 2 ^ places with hvalue
  have hquotient : value = Rat.divInt num (2 ^ places : Nat) := by
    rw [hvalue, Rat.divInt_eq_div]
    push_cast
    rfl
  obtain ⟨top, htop⟩ := Int.eq_ofNat_of_zero_le (Rat.num_pos.mpr hpos).le
  have hden : value.den ∣ 2 ^ places := by
    have h := Rat.den_dvd (num : Int) ((2 ^ places : Nat) : Int)
    rw [← hquotient] at h
    exact_mod_cast h
  obtain ⟨bottom, hbottom, hpower⟩ := (Nat.dvd_prime_pow Nat.prime_two).mp hden
  have hdvd : top ∣ num := by
    have h := Rat.num_dvd (num : Int) (b := ((2 ^ places : Nat) : Int)) (by positivity)
    rw [← hquotient, htop] at h
    exact_mod_cast h
  have hsame : (top : Rat) / 2 ^ bottom = value := by
    rw [← Rat.num_div_den value, htop, hpower]
    push_cast
    rfl
  refine ⟨top, bottom, htop, hpower, ?_, Nat.le_of_dvd hpositive hdvd, hbottom,
    hsame⟩
  rintro rfl
  exact (Rat.num_pos.mpr hpos).ne' htop

/-- A dyadic fraction below one is encoded exactly if its numerator fits the significand. -/
theorem decode_encode_dyadic (negative : Bool) (hprecision : 0 < format.precision)
    (hfits : num < twoTo format.precision) (hbelow : num < twoTo places)
    (hplaces : places < format.bias) :
    format.decode (format.encode (.finite negative (num / 2 ^ places))) =
      .finite negative (num / 2 ^ places) := by
  by_cases hnum : num = 0
  · subst hnum
    have hzero : format.roundRatio 0 1 = 0 := if_pos rfl
    have hfinite : 0 < format.infinity :=
      Nat.mul_pos (Nat.zero_lt_of_lt (bias_lt (Nat.zero_lt_of_lt hplaces))) (Nat.two_pow_pos _)
    rw [Nat.cast_zero, zero_div, encode, Rat.num_zero, Rat.den_zero, Int.toNat_zero, hzero,
      decode_sign_add (Nat.two_pow_pos _), if_neg (Nat.not_lt_zero _), if_neg hfinite.ne,
      Nat.zero_div, if_pos rfl, Nat.zero_mod, Nat.cast_zero, zero_mul]
  obtain ⟨top, bottom, htop, hbottom, hne, hle, hlePlaces, hvalue⟩ :=
    @exists_dyadic_parts num places hnum
  have hbelowTop : top < twoTo bottom := by
    have hone : (num : Rat) / 2 ^ places < 1 := by
      rw [div_lt_one (by positivity)]
      exact_mod_cast hbelow
    rw [← hvalue, div_lt_one (by positivity)] at hone
    exact_mod_cast hone
  obtain ⟨exponent, shift, hround, hlow, hhigh, hfinite, hsum⟩ :=
    roundRatio_dyadic hprecision hne (hle.trans_lt hfits) hbelowTop (hlePlaces.trans_lt hplaces)
  rw [encode, htop, hbottom, Int.toNat_natCast, hround, decode_normal hprecision hlow hhigh hfinite,
    hsum, pow2_neg, ← hvalue, twoTo_eq]
  congr 1
  push_cast
  rw [pow_add]
  field_simp

/-! ### Patterns of one number -/

theorem pow2_eq_zpow (e : Int) : pow2 e = 2 ^ e := by
  obtain ⟨n, rfl | rfl⟩ := e.eq_nat_or_neg
  · rw [pow2_natCast, zpow_natCast, cast_twoTo]
  · rw [pow2_neg, zpow_neg, zpow_natCast, one_div]

/-- How many of its smallest numbers a magnitude of the format stands for. -/
def quanta (format : FloatFormat) (magnitude : Nat) : Nat :=
  let unit := twoTo (format.precision - 1)
  if magnitude / unit = 0 then magnitude % unit
  else (magnitude % unit + unit) * twoTo (magnitude / unit - 1)

theorem quanta_strictMono (format : FloatFormat) : StrictMono format.quanta := by
  refine strictMono_nat_of_lt_succ fun magnitude ↦ ?_
  unfold quanta
  dsimp only
  have hpos : 0 < twoTo (format.precision - 1) := Nat.two_pow_pos _
  set unit := twoTo (format.precision - 1)
  obtain ⟨exponent, hexponent⟩ : ∃ exponent, magnitude / unit = exponent := ⟨_, rfl⟩
  obtain ⟨fraction, hfraction⟩ : ∃ fraction, magnitude % unit = fraction := ⟨_, rfl⟩
  have hlt : fraction < unit := hfraction ▸ Nat.mod_lt _ hpos
  have hnext : magnitude + 1 = fraction + 1 + unit * exponent := by
    rw [← hexponent, ← hfraction, Nat.add_right_comm, Nat.mod_add_div]
  rw [hexponent, hfraction]
  rcases Nat.lt_or_ge (fraction + 1) unit with hsame | hcarry
  · have hquotient : (magnitude + 1) / unit = exponent := by
      rw [hnext, Nat.add_mul_div_left _ _ hpos, Nat.div_eq_of_lt hsame, Nat.zero_add]
    have hrest : (magnitude + 1) % unit = fraction + 1 := by
      rw [hnext, Nat.add_mul_mod_self_left, Nat.mod_eq_of_lt hsame]
    rw [hquotient, hrest]
    split
    · exact Nat.lt_succ_self _
    · exact Nat.mul_lt_mul_of_pos_right (by omega) (Nat.two_pow_pos _)
  -- The fraction is full: the next magnitude has the next exponent and no fraction.
  · have hfull : magnitude + 1 = unit * (exponent + 1) := by
      rw [hnext, Nat.mul_succ]
      omega
    have hquotient : (magnitude + 1) / unit = exponent + 1 := by
      rw [hfull, Nat.mul_div_cancel_left _ hpos]
    have hrest : (magnitude + 1) % unit = 0 := by rw [hfull, Nat.mul_mod_right]
    rw [hquotient, hrest, if_neg (Nat.succ_ne_zero _), Nat.zero_add, Nat.add_sub_cancel]
    split
    · next hzero =>
      rw [hzero, twoTo_eq, Nat.pow_zero, Nat.mul_one]
      exact hlt
    · next hexponent =>
      obtain ⟨less, rfl⟩ := Nat.exists_eq_succ_of_ne_zero hexponent
      calc (fraction + unit) * twoTo (less + 1 - 1) < unit * 2 * twoTo less :=
            Nat.mul_lt_mul_of_pos_right (by omega) (Nat.two_pow_pos _)
        _ = unit * twoTo (less + 1) := by
            rw [twoTo_add, twoTo_eq 1]
            ring

/-- A magnitude below infinity stands for as many quanta. -/
theorem decode_eq_quanta {negative : Bool} {magnitude : Nat} (hprecision : 0 < format.precision)
    (hfinite : magnitude < format.infinity) :
    format.decode ((if negative then format.signBit else 0) + magnitude) =
      .finite negative (format.quanta magnitude * pow2 format.quantum) := by
  rw [decode_sign_add (hfinite.trans (infinity_lt_signBit hprecision)), if_neg hfinite.asymm,
    if_neg hfinite.ne]
  unfold quanta
  dsimp only
  split
  · rfl
  · rw [pow2_eq_zpow, pow2_eq_zpow, zpow_add₀ two_ne_zero, zpow_natCast, Nat.cast_mul, cast_twoTo,
      mul_assoc, mul_comm ((2 : Rat) ^ format.quantum)]

/-- A pattern of a finite number is a sign and a magnitude below infinity. -/
theorem exists_magnitude {bits : Nat} {negative : Bool} {value : Rat}
    (hprecision : 0 < format.precision) (hbits : bits < twoTo format.width)
    (hdecode : format.decode bits = .finite negative value) :
    ∃ magnitude, magnitude < format.infinity ∧
      bits = (if negative then format.signBit else 0) + magnitude := by
  rw [← signBit_add_signBit hprecision] at hbits
  obtain ⟨sign, magnitude, hmagnitude, rfl⟩ : ∃ (sign : Bool) (magnitude : Nat),
      magnitude < format.signBit ∧ bits = (if sign then format.signBit else 0) + magnitude := by
    rcases Nat.lt_or_ge bits format.signBit with hlt | hge
    · exact ⟨false, bits, hlt, (Nat.zero_add bits).symm⟩
    · exact ⟨true, bits - format.signBit, by omega, (Nat.add_sub_cancel' hge).symm⟩
  rw [decode_sign_add hmagnitude] at hdecode
  split at hdecode
  · cases hdecode
  · next hle =>
    split at hdecode
    · cases hdecode
    · next hne =>
      have hsign : sign = negative := by
        split at hdecode <;> cases hdecode <;> rfl
      exact ⟨magnitude, by omega, by rw [hsign]⟩

/-- A pattern is told by the finite number it stands for, the sign of a zero included. -/
theorem decode_injective {bits other : Nat} {negative : Bool} {value : Rat}
    (hprecision : 0 < format.precision) (hbits : bits < twoTo format.width)
    (hother : other < twoTo format.width) (hdecode : format.decode bits = .finite negative value)
    (hsame : format.decode other = .finite negative value) : bits = other := by
  obtain ⟨magnitude, hmagnitude, rfl⟩ := exists_magnitude hprecision hbits hdecode
  obtain ⟨second, hsecond, rfl⟩ := exists_magnitude hprecision hother hsame
  rw [decode_eq_quanta hprecision hmagnitude] at hdecode
  rw [decode_eq_quanta hprecision hsecond, ← hdecode] at hsame
  have hquantum : pow2 format.quantum ≠ 0 := by
    rw [pow2_eq_zpow]
    exact zpow_ne_zero _ two_ne_zero
  have hquanta := mul_right_cancel₀ hquantum (FloatDatum.finite.inj hsame).2
  rw [format.quanta_strictMono.injective (Nat.cast_injective hquanta)]

end ComputeArray.FloatFormat
