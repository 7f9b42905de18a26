import ComputeArray.Proofs.Interface.Calls
import ComputeArray.Proofs.Number.Format

/-!
# Scalars beside integers

A scalar among the operands becomes a constant of the kernel. An integer constant is exactly the
number its scalar stands for, and it is not negative if it is unsigned: fractions lift the
computation to single precision, and negative numbers beside unsigned arrays are refused
(`validated_of_call`). Nothing asks whether the number is too large for a word
(`constant_beyond_word`).
-/

set_option autoImplicit false

namespace ComputeArray

open Engine

/-! ### Whole numbers -/

/-- A whole double stands for an integer, and that is what is left if it is cut. -/
theorem Double.exists_of_isWhole {x : Double} (h : x.isWhole = true) :
    ∃ n : Int, x.datum.value? = some (n : Rat) ∧ x.truncate = .ok n := by
  unfold Double.isWhole at h
  unfold Double.truncate
  cases hdatum : x.datum with
  | finite negative magnitude =>
    rw [hdatum] at h
    have hden : magnitude.den = 1 := of_decide_eq_true h
    have hnum : (magnitude.num.toNat : Int) = magnitude.num :=
      Int.toNat_of_nonneg (Rat.num_nonneg.mpr (FloatFormat.finite_nonneg hdatum))
    have hwhole : ((magnitude.num : Int) : Rat) = magnitude := Rat.coe_int_num_of_den_eq_one hden
    refine ⟨if negative then -magnitude.num else magnitude.num, ?_, ?_⟩
    · cases negative <;> simp [FloatDatum.value?, hwhole]
    · simp only [hden, Nat.div_one, hnum]
  | _ => simp [hdatum] at h

namespace Scalar

variable {scalar : Scalar} {n : Int}

theorem value?_int (n : Int) : (Scalar.int n).datum.value? = some (n : Rat) := by
  simp only [datum, FloatDatum.ofInt, FloatDatum.value?, decide_eq_true_eq, Option.some.injEq]
  split
  · next hneg =>
    have habs : (n.natAbs : Int) = -n := by omega
    rw [← Int.cast_natCast, habs]
    simp
  · next hpos =>
    have habs : (n.natAbs : Int) = n := by omega
    rw [← Int.cast_natCast, habs]

/-- Being negative is asked of the number a scalar stands for. -/
theorem isNegative_iff (h : scalar.datum.value? = some (n : Rat)) :
    scalar.isNegative = true ↔ n < 0 := by
  cases scalar with
  | int m =>
    rw [value?_int, Option.some.injEq, Int.cast_inj] at h
    rw [isNegative, decide_eq_true_eq, h]
  | float x =>
    simp only [isNegative, datum] at h ⊢
    cases hdatum : x.datum with
    | finite negative magnitude =>
      have hpos := FloatFormat.finite_nonneg hdatum
      rw [hdatum, FloatDatum.value?, Option.some.injEq] at h
      cases negative with
      | false =>
        have hn : (0 : Rat) ≤ n := by simpa [← h] using hpos
        simpa using hn
      | true =>
        have hn : (n : Rat) = -magnitude := by simpa using h.symm
        rw [← Int.cast_lt (R := Rat), hn, Int.cast_zero, neg_lt_zero]
        simp only [Bool.true_and, decide_eq_true_eq]
        exact ⟨hpos.lt_of_ne', LT.lt.ne'⟩
    | _ => simp [hdatum, FloatDatum.value?] at h

end Scalar

/-! ### Types of scalars -/

namespace Spelling

variable {a b base result : ElementType} {value : Value}

/-- Only integers of one type combine to integers. -/
theorem promote_integer (h : elements.promote a b = .ok result)
    (hinteger : result.isFloat = false) :
    a = result ∧ b = result := by
  unfold promote at h
  by_cases hsame : a = b
  · rw [if_pos hsame] at h
    cases h
    exact ⟨rfl, hsame.symm⟩
  · rw [if_neg hsame] at h
    split at h
    · cases h
      cases hinteger
    · split at h
      · cases h
        cases hinteger
      · cases h

theorem foldlM_promote_integer {types : List ElementType}
    (h : types.foldlM elements.promote a = .ok result) (hinteger : result.isFloat = false) :
    a = result ∧ ∀ type ∈ types, type = result := by
  induction types generalizing a with
  | nil =>
    cases h
    exact ⟨rfl, nofun⟩
  | cons b rest ih =>
    obtain ⟨next, hnext, h⟩ := bind_eq_ok.mp ((List.foldlM_cons ..).symm.trans h)
    obtain ⟨rfl, hrest⟩ := ih h
    obtain ⟨rfl, rfl⟩ := promote_integer hnext hinteger
    exact ⟨rfl, List.forall_mem_cons.mpr ⟨rfl, hrest⟩⟩

theorem resultType_integer {types : List ElementType} (h : elements.resultType types = .ok result)
    (hinteger : result.isFloat = false) : ∀ type ∈ types, type = result := by
  cases types with
  | nil => cases h
  | cons a rest => exact List.forall_mem_cons.mpr (foldlM_promote_integer h hinteger)

/-- A type combines with itself to itself. -/
theorem foldlM_promote_same {types : List ElementType} (hsame : ∀ type ∈ types, type = a) :
    types.foldlM elements.promote a = .ok a := by
  induction types with
  | nil => rfl
  | cons b rest ih =>
    obtain ⟨rfl, hrest⟩ := List.forall_mem_cons.mp hsame
    rw [List.foldlM_cons]
    exact bind_eq_ok.mpr ⟨b, if_pos rfl, ih hrest⟩

theorem resultType_same {types : List ElementType} (hsame : ∀ type ∈ types, type = a)
    (h : elements.resultType types = .ok result) : result = a := by
  cases types with
  | nil => cases h
  | cons first rest =>
    obtain ⟨rfl, hrest⟩ := List.forall_mem_cons.mp hsame
    exact Except.ok.inj (h.symm.trans (foldlM_promote_same hrest))

/-- A number that is asked whether it is whole stands for an integer if it is. -/
theorem exists_of_wholeScalar {scalar : Scalar} (hscalar : Scalar.ofValue? value = some scalar)
    (h : wholeScalar scalar = .ok true) :
    ∃ n : Int, scalar.datum.value? = some (n : Rat) ∧ value.scalarToInt = .ok n := by
  cases value with
  | bool b =>
    cases hscalar
    exact ⟨_, Scalar.value?_int _, rfl⟩
  | int n =>
    cases hscalar
    exact ⟨n, Scalar.value?_int n, rfl⟩
  | float x =>
    cases hscalar
    exact Double.exists_of_isWhole (Except.ok.inj h)
  | _ => cases hscalar

/-- A scalar that is computed as an integer is a whole number beside arrays of its type, and not
negative if they are unsigned. -/
theorem scalarType_integer (h : elements.scalarType value (some base) = .ok result)
    (hinteger : result.isFloat = false) :
    base = result ∧ ∃ scalar, ∃ n : Int, Scalar.ofValue? value = some scalar ∧
      scalar.datum.value? = some (n : Rat) ∧ value.scalarToInt = .ok n ∧
      (result = .u32 → 0 ≤ n) := by
  unfold scalarType at h
  cases hscalar : Scalar.ofValue? value with
  | none =>
    rw [hscalar] at h
    cases h
  | some scalar =>
    rw [hscalar] at h
    dsimp only at h
    by_cases hfloat : elements.isFloat base = true
    · rw [if_pos hfloat] at h
      cases h
      cases base <;> cases hinteger <;> cases hfloat
    rw [if_neg hfloat] at h
    obtain ⟨whole, hwhole, h⟩ := bind_eq_ok.mp h
    cases whole with
    | false =>
      cases h
      cases hinteger
    | true =>
      obtain ⟨n, hvalue, hint⟩ := exists_of_wholeScalar hscalar hwhole
      rw [if_neg (by decide)] at h
      by_cases hnegative : base = elements.u32 ∧ scalar.isNegative = true
      · rw [if_pos hnegative] at h
        cases h
      rw [if_neg hnegative] at h
      cases h
      refine ⟨rfl, scalar, n, rfl, hvalue, hint, fun hunsigned ↦ ?_⟩
      rw [← Int.not_lt, ← Scalar.isNegative_iff hvalue]
      exact fun hneg ↦ hnegative ⟨hunsigned, hneg⟩

/-- Numbers that are integers are whole, unless they are too large to be asked. -/
theorem wholeScalar_of_integer {scalar : Scalar} {n : Int} {whole : Bool}
    (hn : scalar.datum.value? = some (n : Rat)) (h : wholeScalar scalar = .ok whole) :
    whole = true := by
  obtain ⟨x, hx, h⟩ := bind_eq_ok.mp h
  cases h
  cases scalar with
  | int m =>
    unfold Scalar.toDouble at hx
    cases hdouble : Double.ofInt? m with
    | none => simp [hdouble] at hx
    | some y =>
      simp only [hdouble, Except.ok.injEq] at hx
      exact hx ▸ Double.isWhole_of_ofInt? hdouble
  | float y =>
    cases hx
    simp only [Scalar.datum, Double.isWhole] at hn ⊢
    cases hdatum : x.datum with
    | finite negative value =>
      rw [hdatum, FloatDatum.value?, Option.some.injEq] at hn
      have hvalue : value = ((if negative then -n else n : Int) : Rat) := by
        cases negative
        · simpa using hn
        · simpa using congrArg Neg.neg hn
      simp only [hvalue, Rat.den_intCast, decide_true]
    | _ => simp [hdatum, FloatDatum.value?] at hn

/-- Negative numbers have no type beside unsigned integers. -/
theorem scalarType_negative {scalar : Scalar} {n : Int}
    (hscalar : Scalar.ofValue? value = some scalar) (hn : scalar.datum.value? = some (n : Rat))
    (hneg : n < 0) : elements.scalarType value (some .u32) ≠ .ok result := by
  intro h
  unfold scalarType at h
  rw [hscalar] at h
  dsimp only at h
  rw [if_neg (by decide)] at h
  obtain ⟨whole, hwhole, h⟩ := bind_eq_ok.mp h
  obtain rfl := wholeScalar_of_integer hn hwhole
  rw [if_neg (by decide), if_pos ⟨rfl, (Scalar.isNegative_iff hn).mpr hneg⟩] at h
  cases h

end Spelling

/-! ### Common types -/

variable {engine : Engine} {operands : List Value} {common : ElementType}

/-- The scalar stands for the integer. -/
def Value.StandsFor (value : Value) (n : Int) : Prop :=
  ∃ scalar, Scalar.ofValue? value = some scalar ∧ scalar.datum.value? = some (n : Rat)

namespace Action

/-- The type of an operand beside arrays of a type. -/
def operandType (engine : Engine) (base : ElementType) : Value → Except Failure ElementType
  | .array buffer _ => .ok (engine.array buffer).element
  | value => Spelling.elements.scalarType value (some base)

/-- The common type is that of the types of all operands, scalars beside the type of the arrays. -/
theorem types_of_commonType (h : outcomeOf (commonType operands) engine = .ok common) :
    ∃ base types,
      Spelling.elements.resultType ((Value.arrays operands).map fun buffer ↦
        (engine.array buffer).element) = .ok base ∧
      (∀ operand ∈ operands, ∃ type ∈ types, operandType engine base operand = .ok type) ∧
      Spelling.elements.resultType types = .ok common := by
  unfold commonType at h
  rw [outcomeOf_bind_eq_ok] at h
  obtain ⟨_, hget, h⟩ := h
  cases hget
  rw [stateAfter_get] at h
  dsimp only at h
  by_cases hempty : ((Value.arrays operands).map fun buffer ↦
      (engine.array buffer).element).isEmpty = true
  · rw [if_pos hempty] at h
    cases h
  rw [if_neg hempty, outcomeOf_bind_eq_ok] at h
  obtain ⟨base, hbase, h⟩ := h
  rw [stateAfter_actionOfExcept, outcomeOf_bind_eq_ok] at h
  obtain ⟨types, htypes, h⟩ := h
  rw [outcomeOf_actionOfExcept] at hbase h
  refine ⟨base, types, hbase, ?_, h⟩
  have htyped := (forall₂_persisting_of_outcomeOf_mapM (I := fun _ ↦ True) (R := Eq)
    (Q := fun _ operand type ↦ operandType engine base operand = Except.ok type)
    (fun operand current _ ↦ ⟨trivial, ?_⟩) (fun operand current type _ htype ↦ ?_)
    (fun _ _ _ _ _ h ↦ h) trivial htypes).2
  · intro operand hmem
    exact exists_of_forall₂ (List.Forall₂.flip (R := flip fun operand type ↦
      operandType engine base operand = Except.ok type) htyped) hmem
  · cases operand with
    | array buffer described => rfl
    | _ => exact (stateAfter_actionOfExcept _ _).symm
  · cases operand with
    | array buffer described => exact htype
    | _ => exact (outcomeOf_actionOfExcept _ _).symm.trans htype

variable {value : Value} {n : Int}

/-- A scalar is computed as an integer only beside arrays of just that type. -/
theorem integer_of_commonType (h : outcomeOf (commonType operands) engine = .ok common)
    (hinteger : common.isFloat = false) :
    Value.arrays operands ≠ [] ∧
      (∀ buffer ∈ Value.arrays operands, (engine.array buffer).element = common) ∧
      ∀ value ∈ operands, (∀ buffer described, value ≠ .array buffer described) →
        ∃ n, value.StandsFor n ∧ value.scalarToInt = .ok n ∧ (common = .u32 → 0 ≤ n) := by
  obtain ⟨base, types, hbase, htypes, hcommon⟩ := types_of_commonType h
  have hall := Spelling.resultType_integer hcommon hinteger
  have htyped (value : Value) (hmem : value ∈ operands) :
      operandType engine base value = .ok common := by
    obtain ⟨type, htype, hoperand⟩ := htypes value hmem
    rw [hoperand, hall type htype]
  refine ⟨?_, fun buffer hbuffer ↦ ?_, fun value hvalue hscalar ↦ ?_⟩
  · intro hnone
    rw [hnone] at hbase
    cases hbase
  · obtain ⟨described, hmem⟩ := Value.mem_arrays_iff.mp hbuffer
    exact Except.ok.inj (htyped _ hmem)
  · have htype : Spelling.elements.scalarType value (some base) = .ok common := by
      have htype := htyped value hvalue
      cases value with
      | array buffer described => exact absurd rfl (hscalar buffer described)
      | _ => exact htype
    obtain ⟨-, scalar, n, hreal, hvalue, hint, hsign⟩ := Spelling.scalarType_integer htype hinteger
    exact ⟨n, ⟨scalar, hreal, hvalue⟩, hint, hsign⟩

/-- Beside unsigned arrays, negative numbers have no common type with them. -/
theorem commonType_negative (hmem : value ∈ operands) (hvalue : value.StandsFor n) (hneg : n < 0)
    (hunsigned : ∀ buffer ∈ Value.arrays operands, (engine.array buffer).element = .u32) :
    outcomeOf (commonType operands) engine ≠ .ok common := by
  intro h
  obtain ⟨base, types, hbase, htypes, -⟩ := types_of_commonType h
  obtain rfl : base = .u32 := Spelling.resultType_same (List.forall_mem_map.mpr hunsigned) hbase
  obtain ⟨scalar, hscalar, hn⟩ := hvalue
  obtain ⟨type, -, htype⟩ := htypes value hmem
  have hnumber : operandType engine .u32 value =
      Spelling.elements.scalarType value (some .u32) := by
    cases value with
    | array buffer described => cases hscalar
    | _ => rfl
  exact Spelling.scalarType_negative hscalar hn hneg (hnumber.symm.trans htype)

end Action

/-! ### Constants of passes -/

theorem mem_namedScalars {items : List (String × Value × ElementType)}
    {item : String × Value × ElementType} (h : item ∈ namedScalars items) :
    item ∈ items ∧ ∀ buffer described, item.2.1 ≠ .array buffer described := by
  obtain ⟨⟨name, value, target⟩, hmem, hitem⟩ := List.mem_filterMap.mp h
  cases value with
  | array buffer described => cases hitem
  | _ =>
    cases hitem
    exact ⟨hmem, nofun⟩

/-- Halves are declared in single precision, and every other type as it is. -/
theorem eq_of_type_scalarOperand {target element : ElementType} (hinteger : element.isFloat = false)
    (h : (OperandPlan.scalarOperand target).type = element.name) : target = element := by
  cases element
  case f16 | f32 => cases hinteger
  all_goals cases target <;> first | rfl | exact absurd h (by decide)

/-- The integers words of a type hold. -/
def ElementType.Holds : ElementType → Int → Prop
  | .i32, n => -2 ^ 31 ≤ n ∧ n < 2 ^ 31
  | .u32, n => 0 ≤ n ∧ n < 2 ^ 32
  | _, _ => True

/-- The constants a pass gives its kernel, where integers are declared, are integers that are
allowed for the type. -/
def Dispatch.Gives (pass : Dispatch) (allowed : ElementType → Int → Prop) : Prop :=
  ∃ kernel : Kernel, pass.source = kernel.source ∧
    List.Forall₂ (fun override constant ↦ constant.1 = override.1 ∧
      ∀ element : ElementType, element.isFloat = false → override.2 = element.name →
        ∃ n, constant.2 = Value.int n ∧ allowed element n) kernel.overrides pass.constants

theorem Dispatch.Gives.mono {pass : Dispatch} {allowed wider : ElementType → Int → Prop}
    (h : pass.Gives allowed) (hwider : ∀ element n, element.isFloat = false → allowed element n →
      wider element n) : pass.Gives wider := by
  obtain ⟨kernel, hsource, hconstants⟩ := h
  refine ⟨kernel, hsource, hconstants.imp fun override constant h ↦ ⟨h.1, ?_⟩⟩
  intro element hinteger hdeclared
  obtain ⟨n, hconstant, hallowed⟩ := h.2 element hinteger hdeclared
  exact ⟨n, hconstant, hwider element n hinteger hallowed⟩

theorem Submitting.mono {shows wider : Engine → List Dispatch → Prop} {first last : Engine}
    (h : Submitting shows first last)
    (hwider : ∀ engine dispatches, shows engine dispatches → wider engine dispatches) :
    Submitting wider first last := by
  induction h with
  | refl engine => exact .refl engine
  | quiet quiet _ ih => exact .quiet quiet ih
  | submit shown _ ih => exact .submit (hwider _ _ shown) ih

namespace EngineCall

/-- The operands of a common type. -/
def computed : EngineCall → List Value
  | elementwise _ operands _ => operands
  | choose _ yes no _ => [yes, no]
  | reduce .. => []

/-- The call computes its output element by element. -/
def IsLaunch : EngineCall → Prop
  | reduce .. => False
  | _ => True

/-- The integer is the number of a scalar operand, beside arrays of the type alone, and it is not
negative if they are unsigned. -/
structure Supplies (call : EngineCall) (engine : Engine) (element : ElementType) (n : Int) :
    Prop where
  scalar : ∃ value ∈ call.computed, value.StandsFor n
  beside : Value.arrays call.computed ≠ []
  arrays : ∀ buffer ∈ Value.arrays call.computed, (engine.array buffer).element = element
  nonneg : element = .u32 → 0 ≤ n

/-- A scalar that is computed as an integer is an operand of the common type, and that is just the
type it is computed in. -/
theorem Launches.typed {call : EngineCall} {operation : Operation} {out value : Value}
    {targets : List ElementType} {result target : ElementType}
    (h : call.Launches engine operation operands targets result out)
    (hmem : (value, target) ∈ operands.zip targets) (hinteger : target.isFloat = false)
    (hscalar : ∀ buffer described, value ≠ .array buffer described) :
    value ∈ call.computed ∧ ∃ shared : List Value, shared.Perm call.computed ∧
      outcomeOf (Action.commonType shared) engine = .ok target := by
  cases h with
  | @elementwise tag given out operation common found noFold count typed =>
    have hperm := ordered_perm operation.commutative given
    obtain ⟨hvalue, htarget⟩ := List.of_mem_zip hmem
    obtain ⟨_, -, rfl⟩ := List.mem_map.mp htarget
    by_cases hlifted : operation.floatOnly = true ∧ (!common.isFloat) = true
    · rw [if_pos hlifted] at hinteger
      cases hinteger
    · rw [if_neg hlifted]
      exact ⟨hperm.mem_iff.mp hvalue, _, hperm, typed⟩
  | @choose buffer described yes no out common typed =>
    simp only [List.zip_cons_cons, List.zip_nil_right, List.mem_cons, Prod.mk.injEq,
      List.not_mem_nil, or_false] at hmem
    rcases hmem with ⟨rfl, -⟩ | ⟨rfl, rfl⟩ | ⟨rfl, rfl⟩
    · exact absurd rfl (hscalar _ _)
    · exact ⟨List.mem_cons_self, _, .refl _, typed⟩
    · exact ⟨List.mem_cons_of_mem _ List.mem_cons_self, _, .refl _, typed⟩

/-- What is computed as an integer is a number that a scalar of the call supplies. -/
theorem Launches.supplies {call : EngineCall} {operation : Operation} {out : Value}
    {targets : List ElementType} {result : ElementType}
    (h : call.Launches engine operation operands targets result out) {names : List String}
    {item : String × Value × ElementType}
    (hitem : item ∈ namedScalars (names.zip (operands.zip targets)))
    (hinteger : item.2.2.isFloat = false) :
    ∃ n, item.2.1.scalarToInt = .ok n ∧ call.Supplies engine item.2.2 n := by
  obtain ⟨hmem, hscalar⟩ := mem_namedScalars hitem
  obtain ⟨hcomputed, shared, hperm, hcommon⟩ :=
    h.typed (List.of_mem_zip hmem).2 hinteger hscalar
  obtain ⟨hbeside, harrays, hscalars⟩ := Action.integer_of_commonType hcommon hinteger
  obtain ⟨n, hvalue, hint, hnonneg⟩ := hscalars _ (hperm.mem_iff.mpr hcomputed) hscalar
  have hsub : Value.arrays shared ⊆ Value.arrays call.computed := Value.arrays_mono hperm.subset
  refine ⟨n, hint, ⟨_, hcomputed, hvalue⟩, ?_, fun buffer hbuffer ↦
    harrays buffer (Value.arrays_mono hperm.symm.subset hbuffer), hnonneg⟩
  exact fun hnone ↦ hbeside (List.eq_nil_of_subset_nil (hnone ▸ hsub))

/-- A launched pass gives its kernel the integers that scalars of the call supply. -/
theorem Launches.gives {call : EngineCall} {operation : Operation} {out : Value}
    {targets : List ElementType} {result : ElementType} {arrays : Nat → ArrayState}
    {device : Device} {shape : List Int} {strided : Bool} {target : Nat} {pass : Dispatch}
    {kernel : Kernel} {helpers : List (String × Nat)}
    (h : call.Launches engine operation operands targets result out)
    (hlaunched : LaunchedPass arrays device operation operands targets result shape strided target
      pass kernel helpers) : pass.Gives (call.Supplies engine) := by
  refine ⟨kernel, hlaunched.presents.source, ?_⟩
  rw [hlaunched.overrides, List.forall₂_map_left_iff]
  refine ((List.forall₂_and_left _ _).mpr ⟨fun item ↦ id, hlaunched.constants⟩).imp ?_
  rintro item constant ⟨hitem, hname, hconstant⟩
  refine ⟨hname, fun element hinteger hdeclared ↦ ?_⟩
  obtain rfl : item.2.2 = element := eq_of_type_scalarOperand hinteger hdeclared
  obtain ⟨n, hint, hsupplies⟩ := h.supplies hitem hinteger
  refine ⟨n, ?_, hsupplies⟩
  rw [OperandPlan.constantOf, if_neg (by rw [hinteger]; exact Bool.false_ne_true),
    hint] at hconstant
  exact (Except.ok.inj hconstant).symm

/-- The action fails and leaves the state as it is. -/
def Refuses {α : Type} (engine : Engine) (action : Action α) : Prop :=
  (∃ failure, outcomeOf action engine = .error failure) ∧ stateAfter action engine = engine

theorem Refuses.throw {α : Type} (failure : Failure) :
    Refuses engine (MonadExcept.throw failure : Action α) :=
  ⟨⟨failure, rfl⟩, rfl⟩

/-- Nothing comes after an action that does not succeed. -/
theorem Refuses.bind {α β : Type} {action : Action α} (hnone : ∀ a, outcomeOf action engine ≠ .ok a)
    (hstate : stateAfter action engine = engine) (next : α → Action β) :
    Refuses engine (action >>= next) := by
  cases houtcome : outcomeOf action engine with
  | ok a => exact absurd houtcome (hnone a)
  | error failure =>
    refine ⟨⟨failure, ?_⟩, ?_⟩
    · rw [outcomeOf_bind, houtcome]
    · rw [stateAfter_bind, houtcome, hstate]

/-- The scalars are numbers that words of the types of the arrays hold, as far as these are integers
and the scalars too. -/
def ScalarsFit (call : EngineCall) (engine : Engine) : Prop :=
  ∀ value ∈ call.computed, ∀ n, value.StandsFor n →
    ∀ buffer ∈ Value.arrays call.computed, (engine.array buffer).element.Holds n

/-- How the scalars of a call are validated. -/
structure Validates (call : EngineCall) (engine : Engine) : Prop where
  /-- Integer constants are the numbers of scalars, exactly. -/
  supplied : Submitting (fun _ passes ↦ ∀ pass ∈ passes, pass.Gives (call.Supplies engine)) engine
    (stateAfter call.action engine)
  /-- If the numbers fit their types, so do the constants. -/
  inRange : call.ScalarsFit engine → Submitting (fun _ passes ↦ ∀ pass ∈ passes,
    pass.Gives ElementType.Holds) engine (stateAfter call.action engine)
  /-- A negative number beside unsigned arrays is refused, and nothing happens. -/
  refused : ∀ value ∈ call.computed, ∀ n, value.StandsFor n → n < 0 →
    (∀ buffer ∈ Value.arrays call.computed, (engine.array buffer).element = .u32) →
      Refuses engine call.action

variable {call : EngineCall}

/-- The one submission of a launch gives its kernel what the scalars supply. -/
theorem gives_of_submits {current : Engine} {passes : List Dispatch} (hlaunch : call.IsLaunch)
    (h : (KernelCall.arrays call).Submits engine current passes) :
    ∀ pass ∈ passes, pass.Gives (call.Supplies engine) := by
  cases h with
  | launch launches shaped output launched =>
    exact List.forall_mem_singleton.mpr (launches.gives launched)
  | fold => exact hlaunch.elim

/-- Scalars that fit their types supply what the types hold. -/
theorem Supplies.holds {element : ElementType} {n : Int} (h : call.Supplies engine element n)
    (hfit : call.ScalarsFit engine) : element.Holds n := by
  obtain ⟨value, hvalue, hn⟩ := h.scalar
  obtain ⟨buffer, hbuffer⟩ := List.exists_mem_of_ne_nil _ h.beside
  exact h.arrays buffer hbuffer ▸ hfit value hvalue n hn buffer hbuffer

/-- A call whose operands have no common type is refused. -/
theorem refuses_of_commonType (hlaunch : call.IsLaunch)
    (hnone : ∀ shared : List Value, shared.Perm call.computed → ∀ common,
      outcomeOf (Action.commonType shared) engine ≠ .ok common) :
    Refuses engine call.action := by
  cases call with
  | elementwise tag operands out =>
    change Refuses engine (Action.elementwise tag operands out)
    unfold Action.elementwise
    cases Operation.find? tag with
    | none => exact .throw _
    | some operation =>
      dsimp only
      split
      · exact .throw _
      · split
        · exact .throw _
        · exact .bind (hnone _ (ordered_perm _ _)) (stateAfter_commonType _ _) _
  | choose condition yes no out =>
    change Refuses engine (Action.choose condition yes no out)
    unfold Action.choose
    cases condition with
    | array buffer described => exact .bind (hnone _ (.refl _)) (stateAfter_commonType _ _) _
    | _ => exact .throw _
  | reduce => exact hlaunch.elim

end EngineCall

/-! ### Calls -/

/-- The scalars of an elementwise call are validated, except that nothing asks whether they are too
large for a word. -/
theorem validates_of_call {call : EngineCall} (hreachable : engine.Reachable)
    (hlaunch : call.IsLaunch) (hadmits : (KernelCall.arrays call).Admits engine) :
    call.Validates engine where
  supplied := (presenting_engineCall hadmits hreachable).2.mono fun _ _ ↦
    EngineCall.gives_of_submits hlaunch
  inRange hfit := (presenting_engineCall hadmits hreachable).2.mono fun _ _ h pass hmem ↦
    (EngineCall.gives_of_submits hlaunch h pass hmem).mono fun _ _ _ hsupplies ↦
      hsupplies.holds hfit
  refused _ hmem _ hvalue hneg hunsigned :=
    EngineCall.refuses_of_commonType hlaunch fun _ hperm _ ↦
      Action.commonType_negative (hperm.mem_iff.mpr hmem) hvalue hneg fun buffer hbuffer ↦
        hunsigned buffer (Value.arrays_mono hperm.subset hbuffer)

/-- Three integers and a number that is added to them. -/
def sumCall (n : Int) : EngineCall := .elementwise "add" [.array 2 "", .int n] .none

/-- The number is a constant of the one pass. -/
theorem validates_of_call_sum :
    ((outcomeOf (sumCall 7).plan mixedEngine).toOption.map fun plan ↦ plan.dispatches.map
      fun pass ↦ pass.constants.map fun (name, value) ↦ (name, value.scalarToInt.toOption)) =
        some [[("rhs", some 7)]] ∧
      (sumCall 7).Validates mixedEngine := by
  have hreachable : mixedEngine.Reachable := ⟨_, _, _, _, _, _, fun _ _ ↦ trivial, rfl⟩
  have hadmits : (KernelCall.arrays (sumCall 7)).Admits mixedEngine := by
    intro buffer hmem
    rw [← Option.isSome_iff_exists]
    revert buffer
    decide +kernel
  exact ⟨by decide +kernel, validates_of_call hreachable trivial hadmits⟩

/-- The kernel of the sum, in which the integers lie apart and the number is a constant. -/
def sumKernel : Except Failure Kernel :=
  (Operation.operator "+" true).kernel 64 [⟨some 0, "i32", ""⟩, ⟨none, "i32", ""⟩]
    ⟨some 1, "i32", ""⟩ (some [("lhs", some 2), ("out", some 3)])

/-- A number that is too large for the word its kernel declares is submitted all the same. -/
theorem constant_beyond_word :
    outcomeOf (sumCall 2147483648).action mixedEngine = .ok 3 ∧
      ((outcomeOf (sumCall 2147483648).plan mixedEngine).toOption.map fun plan ↦
        plan.dispatches.map fun pass ↦ (some pass.source, pass.constants.map fun (name, value) ↦
          (name, value.scalarToInt.toOption))) =
            some [(sumKernel.toOption.map Kernel.source, [("rhs", some 2147483648)])] ∧
      sumKernel.toOption.map Kernel.overrides = some [("rhs", "i32")] ∧
      ¬ ElementType.i32.Holds 2147483648 := by
  refine ⟨eq_ok_iff.mpr (by decide +kernel), by decide +kernel, by decide +kernel, ?_⟩
  unfold ElementType.Holds
  decide

end ComputeArray
