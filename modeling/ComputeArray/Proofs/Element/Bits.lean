import ComputeArray.Element.Cell
import ComputeArray.Proofs.Kernel.Bindings
import ComputeArray.Proofs.Number.Format
import ComputeArray.Proofs.Run.Outcome

/-!
# Bits of elements

Whatever a value is stored as fits an element of the type (`ElementType.store_lt`): words keep the
low bits of an integer, and floats are encoded in their format.
-/

set_option autoImplicit false

namespace ComputeArray

variable {element : ElementType} {value : Value} {bits : Nat}

namespace FloatDatum

theorem Narrow.quiet {datum : FloatDatum} (h : datum.Narrow) : datum.quiet.Narrow := by
  intro negative payload hnan
  cases datum with
  | nan sign given =>
    cases hnan
    have hquiet : quietBit = twoTo 51 := rfl
    have hsum : twoTo 52 = twoTo 51 + twoTo 51 := rfl
    have hlt : given % quietBit < quietBit := Nat.mod_lt _ (Nat.two_pow_pos 51)
    omega
  | _ => exact h negative payload hnan

theorem narrow_double (x : Double) : x.datum.Narrow :=
  FloatFormat.narrow_decode (by decide) (by decide) _

/-- A value is read as a float with a payload of that width. -/
theorem narrow_of_toReal {datum : FloatDatum} (h : value.toReal = .ok datum) : datum.Narrow := by
  have hscalar {scalar : Scalar} (h : scalar.toDouble.map Double.datum = .ok datum) :
      datum.Narrow := by
    cases hdouble : scalar.toDouble with
    | error failure =>
      rw [hdouble] at h
      cases h
    | ok x =>
      rw [hdouble] at h
      cases h
      exact narrow_double x
  unfold Value.toReal at h
  split at h
  · exact hscalar h
  · cases h
    rintro _ _ ⟨⟩
    decide
  · split at h
    · cases h
      exact narrow_double _
    · cases h
  all_goals cases h

end FloatDatum

namespace ElementType

open FloatDatum

theorem wordBits_lt (n : Int) : wordBits n < 256 ^ 4 := by
  have hwords : (256 : Nat) ^ 4 = twoTo 32 := rfl
  have hpos : (0 : Int) < (twoTo 32 : Nat) := by decide
  have hle := Int.emod_nonneg n hpos.ne'
  have hlt := Int.emod_lt_of_pos n hpos
  rw [hwords, wordBits, Word.pattern]
  omega

/-- A float element is encoded in as many bits as it has. -/
theorem encode_format_lt {datum : FloatDatum} (hfloat : element.isFloat = true)
    (hnarrow : datum.Narrow) : element.format.encode datum < 256 ^ element.size := by
  cases element
  case f16 => exact FloatFormat.encode_lt (by decide) (by decide) hnarrow
  case f32 => exact FloatFormat.encode_lt (by decide) (by decide) hnarrow
  all_goals cases hfloat

theorem ofDouble_lt {datum : FloatDatum} (hfloat : element.isFloat = true)
    (hnarrow : datum.Narrow) : element.format.ofDouble datum < 256 ^ element.size := by
  unfold FloatFormat.ofDouble
  split
  · exact encode_format_lt hfloat hnarrow.quiet
  · exact encode_format_lt hfloat hnarrow

theorem size_of_integer (hinteger : element.isFloat = false) : element.size = 4 := by
  cases element
  case f16 => cases hinteger
  all_goals rfl

theorem storeInt_lt {n : Int} (hinteger : element.isFloat = false)
    (h : element.storeInt n = .ok bits) : bits < 256 ^ element.size := by
  unfold storeInt at h
  split at h
  · cases h
    rw [size_of_integer hinteger]
    exact wordBits_lt n
  · split at h <;> cases h

theorem storeScalar_lt (h : element.storeScalar value = .ok bits) : bits < 256 ^ element.size := by
  unfold storeScalar at h
  cases hfloat : element.isFloat with
  | true =>
    rw [if_pos hfloat] at h
    cases hreal : value.toReal with
    | error failure =>
      rw [hreal] at h
      cases h
    | ok datum =>
      rw [hreal] at h
      cases h
      exact ofDouble_lt hfloat (narrow_of_toReal hreal)
  | false =>
    rw [hfloat, if_neg Bool.false_ne_true] at h
    cases hint : value.toInt with
    | error failure =>
      rw [hint] at h
      cases h
    | ok n =>
      rw [hint] at h
      exact storeInt_lt hfloat h

/-! ### Cells of tables -/

theorem castInt_lt (element : ElementType) (n : Int) : element.castInt n < 256 ^ element.size := by
  cases element
  case f16 =>
    exact FloatFormat.encode_lt (by decide) (by decide)
      (FloatFormat.narrow_decode (by decide) (by decide) _)
  case f32 => exact FloatFormat.encode_lt (by decide) (by decide) (narrow_ofInt n)
  all_goals exact wordBits_lt n

theorem castFloat_lt (element : ElementType) (kind : CellKind) (x : Double) :
    element.castFloat kind x < 256 ^ element.size := by
  unfold castFloat
  cases hfloat : element.isFloat with
  | true =>
    rw [if_neg (by decide)]
    split
    · exact ofDouble_lt hfloat (narrow_double x)
    · exact encode_format_lt hfloat (narrow_double x)
  | false =>
    rw [if_pos (by decide), size_of_integer hfloat]
    exact wordBits_lt _

theorem castText_lt {origin : TextOrigin} {text : String}
    (h : element.castText origin text = .ok bits) : bits < 256 ^ element.size := by
  unfold castText at h
  cases hfloat : element.isFloat with
  | true =>
    rw [if_pos hfloat] at h
    split at h
    · cases h
      exact ofDouble_lt hfloat (narrow_double _)
    · cases h
  | false =>
    rw [hfloat, if_neg Bool.false_ne_true] at h
    cases hint : Value.textToInt origin text with
    | error failure =>
      rw [hint] at h
      cases h
    | ok n =>
      rw [hint] at h
      exact storeInt_lt hfloat h

theorem castCell_lt {kind : CellKind} (h : element.castCell kind value = .ok bits) :
    bits < 256 ^ element.size := by
  unfold castCell at h
  split at h
  · cases h
  · exact storeScalar_lt h
  · cases h
    exact castInt_lt element _
  · cases h
    exact castFloat_lt element _ _
  · exact castText_lt h
  · exact castText_lt h
  · exact storeScalar_lt h

/-! ### Values -/

/-- The bits a value is stored as fit the element. -/
theorem store_lt (h : element.store value = .ok bits) : bits < 256 ^ element.size := by
  unfold store at h
  split at h
  · exact castCell_lt h
  · cases h
  · exact storeScalar_lt h

theorem storeAll_lt {values : List Nat} (h : element.storeAll value = .ok values) :
    ∀ bits ∈ values, bits < 256 ^ element.size := by
  obtain ⟨_, -, h⟩ := bind_eq_ok.mp h
  intro bits hmem
  obtain ⟨leaf, -, hleaf⟩ := exists_of_forall₂ (Kernel.forall₂_of_mapM_ok h) hmem
  exact store_lt hleaf

end ElementType

end ComputeArray
