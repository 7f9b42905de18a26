import ComputeArray.Proofs.Interface.Scalars

/-!
# Types resolved in any order

The promotion of a list goes from left to right, and two different integer types have none. A float
absorbs the integers after it, so a list fails exactly if both integer types stand before its first
float (`Conflict`), and otherwise gives its type of the highest rank (`resultType_eq_ok_iff`). The
order of a list therefore matters only for lists that hold both integer types and a float: some
orders of them fail, and all others give the same type (`TypeResolution`, `resultType_conflicting`).
The common type of two operands is the same in both orders, or both fail with the same kind of
failure (`commonType_swap`).
-/

set_option autoImplicit false

namespace ComputeArray

/-- The same answer, or failures of one kind. -/
def SameKind {α : Type} (first second : Except Failure α) : Prop :=
  first.mapError Failure.kind = second.mapError Failure.kind

namespace ElementType

/-- Integers are below half precision, and that is below single precision. -/
def rank : ElementType → Nat
  | .i32 => 0
  | .u32 => 0
  | .f16 => 1
  | .f32 => 2

theorem isFloat_iff_rank (element : ElementType) : element.isFloat = true ↔ 0 < element.rank := by
  cases element <;> decide

end ElementType

namespace Spelling

variable {a b c result : ElementType} {types others : List ElementType}

/-- Both integer types stand before the first float. -/
def Conflict (types : List ElementType) : Prop :=
  .i32 ∈ types.takeWhile (!·.isFloat) ∧ .u32 ∈ types.takeWhile (!·.isFloat)

/-- Both integer types are in a list, and a float as well. -/
def Mixed (types : List ElementType) : Prop :=
  .i32 ∈ types ∧ .u32 ∈ types ∧ ∃ type ∈ types, type.isFloat = true

/-- A type of the list that no other one of it outranks. -/
def Dominant (types : List ElementType) (result : ElementType) : Prop :=
  result ∈ types ∧ ∀ type ∈ types, type.rank ≤ result.rank

/-! ### Two types -/

theorem promote_comm (a b : ElementType) : SameKind (elements.promote a b) (elements.promote b a) :=
  by cases a <;> cases b <;> rfl

/-- Two types combine to the one of higher rank. -/
theorem promote_eq_ok (h : elements.promote a b = .ok c) :
    (c = a ∨ c = b) ∧ a.rank ≤ c.rank ∧ b.rank ≤ c.rank ∧ (c.rank = a.rank → c = a) ∧
      (c.rank = b.rank → c = b) := by
  cases a <;> cases b <;> cases h <;> decide

theorem promote_eq_error {failure : Failure} (h : elements.promote a b = .error failure) :
    failure.kind = .elementType ∧ ∀ rest, Conflict (a :: b :: rest) := by
  cases a <;> cases b <;> cases h <;>
    exact ⟨rfl, fun rest ↦ by simp [Conflict, ElementType.isFloat]⟩

/-- Promoting the first two types of a list neither makes nor takes away a conflict. -/
theorem conflict_promote (h : elements.promote a b = .ok c) (rest : List ElementType) :
    Conflict (a :: b :: rest) ↔ Conflict (c :: rest) := by
  cases a <;> cases b <;> cases h <;> simp [Conflict, ElementType.isFloat, elements]

theorem dominant_promote (h : elements.promote a b = .ok c) (rest : List ElementType) :
    Dominant (a :: b :: rest) result ↔ Dominant (c :: rest) result := by
  obtain ⟨hfrom, ha, hb, hsameA, hsameB⟩ := promote_eq_ok h
  simp only [Dominant, List.mem_cons, forall_eq_or_imp]
  constructor
  · rintro ⟨rfl | rfl | hmem, hrankA, hrankB, hrest⟩
    · have hc : c = result := by
        rcases hfrom with rfl | rfl
        · rfl
        · exact hsameA (Nat.le_antisymm hrankB ha)
      exact ⟨.inl hc.symm, hc ▸ le_rfl, hrest⟩
    · have hc : c = result := by
        rcases hfrom with rfl | rfl
        · exact hsameB (Nat.le_antisymm hrankA hb)
        · rfl
      exact ⟨.inl hc.symm, hc ▸ le_rfl, hrest⟩
    · refine ⟨.inr hmem, ?_, hrest⟩
      rcases hfrom with rfl | rfl
      · exact hrankA
      · exact hrankB
  · rintro ⟨hmem, hrank, hrest⟩
    refine ⟨?_, ha.trans hrank, hb.trans hrank, hrest⟩
    rcases hmem with rfl | hmem
    · exact hfrom.imp_right .inl
    · exact .inr (.inr hmem)

/-! ### Lists of types -/

/-- A fold of promotions gives the dominant type, and fails exactly at a conflict. -/
theorem foldlM_promote_eq (a : ElementType) (types : List ElementType) :
    (∃ result, types.foldlM elements.promote a = .ok result ∧ ¬ Conflict (a :: types) ∧
      Dominant (a :: types) result) ∨
    ∃ failure, types.foldlM elements.promote a = .error failure ∧ failure.kind = .elementType ∧
      Conflict (a :: types) := by
  induction types generalizing a with
  | nil =>
    refine .inl ⟨a, rfl, ?_, List.mem_singleton_self a, fun type htype ↦ ?_⟩
    · cases a <;> simp [Conflict, ElementType.isFloat]
    · rw [List.mem_singleton.mp htype]
  | cons b rest ih =>
    rw [List.foldlM_cons]
    cases hpromote : elements.promote a b with
    | ok c =>
      simp only [conflict_promote hpromote, dominant_promote hpromote]
      exact ih c
    | error failure =>
      obtain ⟨hkind, hconflict⟩ := promote_eq_error hpromote
      exact .inr ⟨failure, rfl, hkind, hconflict rest⟩

/-- Without a conflict, only one type is dominant: two integers of which none is outranked are
the only ones there. -/
theorem Dominant.unique (hconflict : ¬ Conflict types) (ha : Dominant types a)
    (hb : Dominant types b) : a = b := by
  have hrank : a.rank = b.rank := Nat.le_antisymm (hb.2 a ha.1) (ha.2 b hb.1)
  have hinteger (hlowest : a.rank = 0) : types.takeWhile (!·.isFloat) = types := by
    refine List.takeWhile_eq_self_iff.mpr fun type htype ↦ ?_
    have hbelow := ha.2 type htype
    have hfloat := (ElementType.isFloat_iff_rank type).mp
    by_contra hnot
    have hpositive := hfloat (by simpa using hnot)
    omega
  have hamem := ha.1
  have hbmem := hb.1
  cases a <;> cases b <;> first
    | rfl
    | exact absurd hrank (by decide)
    | exact absurd (by rw [Conflict, hinteger rfl]; exact ⟨by assumption, by assumption⟩) hconflict

/-- A list has a type unless it has a conflict, and the type is its dominant one. -/
theorem resultType_eq_ok_iff (hne : types ≠ []) :
    elements.resultType types = .ok result ↔ ¬ Conflict types ∧ Dominant types result := by
  obtain ⟨a, rest, rfl⟩ := List.exists_cons_of_ne_nil hne
  change rest.foldlM elements.promote a = .ok result ↔ _
  rcases foldlM_promote_eq a rest with ⟨found, hfound, hfree, hdominant⟩ |
    ⟨failure, hfailure, -, hconflict⟩
  · rw [hfound, Except.ok.injEq]
    constructor
    · rintro rfl
      exact ⟨hfree, hdominant⟩
    · rintro ⟨-, hresult⟩
      exact hdominant.unique hfree hresult
  · rw [hfailure]
    exact ⟨nofun, fun h ↦ absurd hconflict h.1⟩

theorem resultType_eq_error_iff (hne : types ≠ []) :
    (∃ failure, elements.resultType types = .error failure ∧ failure.kind = .elementType) ↔
      Conflict types := by
  obtain ⟨a, rest, rfl⟩ := List.exists_cons_of_ne_nil hne
  change (∃ failure, rest.foldlM elements.promote a = .error failure ∧ _) ↔ _
  rcases foldlM_promote_eq a rest with ⟨found, hfound, hfree, -⟩ |
    ⟨failure, hfailure, hkind, hconflict⟩
  · rw [hfound]
    exact ⟨nofun, fun h ↦ absurd h hfree⟩
  · exact ⟨fun _ ↦ hconflict, fun _ ↦ ⟨failure, hfailure, hkind⟩⟩

theorem resultType_cases (hne : types ≠ []) :
    (∃ result, elements.resultType types = .ok result) ∨
      ∃ failure, elements.resultType types = .error failure ∧ failure.kind = .elementType := by
  obtain ⟨a, rest, rfl⟩ := List.exists_cons_of_ne_nil hne
  rcases foldlM_promote_eq a rest with ⟨result, hresult, -⟩ | ⟨failure, hfailure, hkind, -⟩
  · exact .inl ⟨result, hresult⟩
  · exact .inr ⟨failure, hfailure, hkind⟩

/-! ### Other orders -/

theorem Dominant.perm (hperm : types.Perm others) :
    Dominant types result ↔ Dominant others result := by
  simp only [Dominant, hperm.mem_iff]

/-- All orders that have a type have the same one. -/
theorem resultType_perm_of_ok (hne : types ≠ []) (hperm : types.Perm others)
    (ha : elements.resultType types = .ok a) (hb : elements.resultType others = .ok b) :
    a = b := by
  have hne' : others ≠ [] := fun h ↦ hne (List.perm_nil.mp (h ▸ hperm))
  obtain ⟨hfree, ha⟩ := (resultType_eq_ok_iff hne).mp ha
  obtain ⟨-, hb⟩ := (resultType_eq_ok_iff hne').mp hb
  exact ha.unique hfree ((Dominant.perm hperm).mpr hb)

/-- Without a float, or without one of the integer types, every order has a conflict or none. -/
theorem conflict_perm (hperm : types.Perm others) (hmixed : ¬ Mixed types) :
    Conflict types → Conflict others := by
  intro hconflict
  have hall : others.takeWhile (!·.isFloat) = others := by
    refine List.takeWhile_eq_self_iff.mpr fun type htype ↦ ?_
    by_contra hfloat
    exact hmixed ⟨List.takeWhile_subset _ hconflict.1, List.takeWhile_subset _ hconflict.2, type,
      hperm.mem_iff.mpr htype, by simpa using hfloat⟩
  rw [Conflict, hall]
  exact ⟨hperm.mem_iff.mp (List.takeWhile_subset _ hconflict.1),
    hperm.mem_iff.mp (List.takeWhile_subset _ hconflict.2)⟩

theorem Mixed.perm (hperm : types.Perm others) : Mixed types ↔ Mixed others := by
  simp only [Mixed, hperm.mem_iff]

/-- Lists that are not mixed resolve to the same in every order. -/
theorem resultType_perm (hne : types ≠ []) (hperm : types.Perm others) (hmixed : ¬ Mixed types) :
    SameKind (elements.resultType types) (elements.resultType others) := by
  have hne' : others ≠ [] := fun h ↦ hne (List.perm_nil.mp (h ▸ hperm))
  rcases resultType_cases hne with ⟨a, ha⟩ | ⟨failure, hfailure, hkind⟩
  · obtain ⟨hfree, hdominant⟩ := (resultType_eq_ok_iff hne).mp ha
    have hfree' : ¬ Conflict others := fun h ↦
      hfree (conflict_perm hperm.symm (mt (Mixed.perm hperm).mpr hmixed) h)
    rw [ha, (resultType_eq_ok_iff hne').mpr ⟨hfree', (Dominant.perm hperm).mp hdominant⟩]
    rfl
  · have hconflict := (resultType_eq_error_iff hne).mp ⟨failure, hfailure, hkind⟩
    obtain ⟨other, hother, hkind'⟩ :=
      (resultType_eq_error_iff hne').mpr (conflict_perm hperm hmixed hconflict)
    simp only [SameKind, hfailure, hother, Except.mapError, hkind, hkind']

/-! ### Names of types -/

theorem promote_name (a b : ElementType) :
    texts.promote a.name b.name = (elements.promote a b).map ElementType.name := by
  cases a <;> cases b <;> rfl

/-- The names of types resolve as the types do. -/
theorem resultType_name (types : List ElementType) :
    texts.resultType (types.map ElementType.name) =
      (elements.resultType types).map ElementType.name := by
  cases types with
  | nil => rfl
  | cons a rest =>
    change (rest.map ElementType.name).foldlM texts.promote a.name =
      (rest.foldlM elements.promote a).map ElementType.name
    induction rest generalizing a with
    | nil => rfl
    | cons b rest ih =>
      rw [List.map_cons, List.foldlM_cons, List.foldlM_cons, promote_name]
      cases elements.promote a b with
      | ok c => exact ih c
      | error failure => rfl

/-- What a list of types resolves to, and how far that depends on its order. -/
structure TypeResolution (types : List ElementType) : Prop where
  answers : ∀ result, elements.resultType types = .ok result ↔
    ¬ Conflict types ∧ Dominant types result
  fails : (∃ failure, elements.resultType types = .error failure ∧
    failure.kind = .elementType) ↔ Conflict types
  decided : Conflict types ∨ ∃ result, elements.resultType types = .ok result
  /-- Order does not matter unless both integer types and a float are there. -/
  orders : ¬ Mixed types → ∀ others, types.Perm others →
    SameKind (elements.resultType types) (elements.resultType others)
  /-- Where it matters, it is for having a type at all, not for which one. -/
  agrees : ∀ others, types.Perm others → ∀ a b, elements.resultType types = .ok a →
    elements.resultType others = .ok b → a = b
  named : texts.resultType (types.map ElementType.name) =
    (elements.resultType types).map ElementType.name

theorem typeResolution (hne : types ≠ []) : TypeResolution types where
  answers _ := resultType_eq_ok_iff hne
  fails := resultType_eq_error_iff hne
  decided := by
    rcases resultType_cases hne with hanswer | hfailure
    · exact .inr hanswer
    · exact .inl ((resultType_eq_error_iff hne).mp hfailure)
  orders hmixed _ hperm := resultType_perm hne hperm hmixed
  agrees _ hperm _ _ := resultType_perm_of_ok hne hperm
  named := resultType_name types

/-- The order of a list with both integer types and a float can decide whether it has a type:
`i32, u32, f32` has none, while `f32, i32, u32` has one. -/
theorem resultType_conflicting :
    elements.resultType [.i32, .u32, .f32] = .error (.incompatibleTypes "i32" "u32") ∧
    elements.resultType [.f32, .i32, .u32] = .ok .f32 ∧
    ¬ ∀ types others : List ElementType, types ≠ [] → types.Perm others →
      SameKind (elements.resultType types) (elements.resultType others) := by
  refine ⟨rfl, rfl, fun h ↦ ?_⟩
  have hperm : [ElementType.i32, .u32, .f32].Perm [.f32, .i32, .u32] := by decide
  exact absurd (h _ _ (List.cons_ne_nil _ _) hperm) nofun

end Spelling

namespace Action

open Engine Spelling

/-! ### Operands -/

/-- The common type of operands, worked out without an engine that changes. -/
def typeOf (engine : Engine) (operands : List Value) : Except Failure ElementType := do
  let types := (Value.arrays operands).map fun buffer ↦ (engine.array buffer).element
  if types.isEmpty then throw .noArrayOperand
  let base ← elements.resultType types
  elements.resultType (← operands.mapM (operandType engine base))

/-- Finding the types of operands one after the other changes nothing on the way. -/
theorem outcomeOf_mapM_ofExcept {α β : Type} {f : α → Except Failure β} {g : α → Action β}
    (hsilent : ∀ item, g item = ofExcept (f item)) (items : List α) (engine : Engine) :
    outcomeOf (items.mapM g) engine = items.mapM f := by
  induction items with
  | nil => rfl
  | cons first rest ih =>
    rw [List.mapM_cons, List.mapM_cons, outcomeOf_bind, hsilent, outcomeOf_actionOfExcept,
      stateAfter_actionOfExcept]
    cases f first with
    | error failure => rfl
    | ok result =>
      dsimp only
      rw [outcomeOf_bind, ih]
      cases rest.mapM f <;> rfl

theorem outcomeOf_commonType (operands : List Value) (engine : Engine) :
    outcomeOf (commonType operands) engine = typeOf engine operands := by
  unfold commonType typeOf
  rw [outcomeOf_bind, outcomeOf_get, stateAfter_get]
  dsimp only
  split
  · rfl
  · rw [outcomeOf_bind, outcomeOf_actionOfExcept, stateAfter_actionOfExcept]
    cases elements.resultType ((Value.arrays operands).map fun buffer ↦
        (engine.array buffer).element) with
    | error failure => rfl
    | ok base =>
      dsimp only
      rw [outcomeOf_bind, outcomeOf_mapM_ofExcept (f := operandType engine base) (by
        intro value
        cases value <;> rfl)]
      change _ = (operands.mapM (operandType engine base) >>= elements.resultType)
      cases operands.mapM (operandType engine base) with
      | error failure => rfl
      | ok types => exact outcomeOf_actionOfExcept _ _

/-- An operand is an array, or it is none of the arrays of a call. -/
theorem array_or_scalar (value : Value) :
    (∃ buffer described, value = .array buffer described) ∨
      ∀ rest, Value.arrays (value :: rest) = Value.arrays rest := by
  cases value with
  | array buffer described => exact .inl ⟨buffer, described, rfl⟩
  | _ => exact .inr fun _ ↦ rfl

theorem resultType_pair (a b : ElementType) :
    elements.resultType [a, b] = elements.promote a b := by
  change (elements.promote a b >>= pure) = _
  cases elements.promote a b <;> rfl

/-- Two arrays are of the type their types combine to. -/
theorem typeOf_arrays (engine : Engine) (first second : Nat) (described other : String) :
    typeOf engine [.array first described, .array second other] =
      elements.promote (engine.array first).element (engine.array second).element := by
  change (elements.resultType [(engine.array first).element, (engine.array second).element] >>=
    fun _ ↦ elements.resultType
      [(engine.array first).element, (engine.array second).element]) = _
  rw [resultType_pair]
  cases elements.promote (engine.array first).element (engine.array second).element <;> rfl

/-- An array before another operand takes that one's type beside the array's. -/
theorem typeOf_array_scalar (engine : Engine) (buffer : Nat) (described : String) {value : Value}
    (harrays : ∀ rest, Value.arrays (value :: rest) = Value.arrays rest) :
    typeOf engine [.array buffer described, value] =
      (operandType engine (engine.array buffer).element value >>=
        elements.promote (engine.array buffer).element) := by
  have honly : Value.arrays [.array buffer described, value] = [buffer] :=
    congrArg (buffer :: ·) (harrays [])
  simp only [typeOf, honly]
  change (List.mapM (operandType engine (engine.array buffer).element)
    [.array buffer described, value] >>= elements.resultType) = _
  rw [List.mapM_cons, List.mapM_cons, List.mapM_nil]
  cases operandType engine (engine.array buffer).element value with
  | error failure => rfl
  | ok type => exact resultType_pair _ type

theorem typeOf_scalar_array (engine : Engine) (buffer : Nat) (described : String) {value : Value}
    (harrays : ∀ rest, Value.arrays (value :: rest) = Value.arrays rest) :
    typeOf engine [value, .array buffer described] =
      (operandType engine (engine.array buffer).element value >>=
        (elements.promote · (engine.array buffer).element)) := by
  have honly : Value.arrays [value, .array buffer described] = [buffer] := harrays _
  simp only [typeOf, honly]
  change (List.mapM (operandType engine (engine.array buffer).element)
    [value, .array buffer described] >>= elements.resultType) = _
  rw [List.mapM_cons, List.mapM_cons, List.mapM_nil]
  cases operandType engine (engine.array buffer).element value with
  | error failure => rfl
  | ok type => exact resultType_pair type _

/-- Whether an array or the other operand comes first does not matter. -/
theorem typeOf_swap (engine : Engine) (buffer : Nat) (described : String) {value : Value}
    (harrays : ∀ rest, Value.arrays (value :: rest) = Value.arrays rest) :
    SameKind (typeOf engine [.array buffer described, value])
      (typeOf engine [value, .array buffer described]) := by
  rw [typeOf_array_scalar engine buffer described harrays,
    typeOf_scalar_array engine buffer described harrays]
  cases operandType engine (engine.array buffer).element value with
  | error failure => rfl
  | ok type => exact promote_comm _ type

/-- Two operands have the same type in both orders, or fail with one kind of failure. -/
theorem commonType_swap (engine : Engine) (left right : Value) :
    SameKind (outcomeOf (commonType [left, right]) engine)
      (outcomeOf (commonType [right, left]) engine) := by
  rw [outcomeOf_commonType, outcomeOf_commonType]
  rcases array_or_scalar left with ⟨buffer, described, rfl⟩ | hleft <;>
    rcases array_or_scalar right with ⟨other, described', rfl⟩ | hright
  · rw [typeOf_arrays, typeOf_arrays]
    exact promote_comm _ _
  · exact typeOf_swap engine buffer described hright
  · exact (typeOf_swap engine other described' hleft).symm
  · -- No array is among them, so neither order has a type to start from.
    have hnone (first second : Value) (hfirst : ∀ rest, Value.arrays (first :: rest) =
        Value.arrays rest) (hsecond : ∀ rest, Value.arrays (second :: rest) = Value.arrays rest) :
        typeOf engine [first, second] = .error .noArrayOperand := by
      simp only [typeOf, hfirst, hsecond]
      rfl
    rw [hnone left right hleft hright, hnone right left hright hleft]
    rfl

end Action

/-- **Element types resolve in any order, unless both integer types and a float are among them**:
then the orders with a type still agree on it. The common type of two operands never depends on
which of them comes first. -/
theorem resolves_in_any_order :
    (∀ (first : ElementType) (rest : List ElementType), Spelling.TypeResolution (first :: rest)) ∧
    ∀ (engine : Engine) (left right : Value),
      SameKind (outcomeOf (Action.commonType [left, right]) engine)
        (outcomeOf (Action.commonType [right, left]) engine) :=
  ⟨fun _ _ ↦ Spelling.typeResolution (List.cons_ne_nil _ _), Action.commonType_swap⟩

end ComputeArray
