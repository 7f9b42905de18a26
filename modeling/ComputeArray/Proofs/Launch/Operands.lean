import ComputeArray.Proofs.Launch.Bound
import ComputeArray.Proofs.Launch.Source

/-!
# Operands by name

The arrays among the operands of an operation are those a kernel declares under their names
(`mem_arrayNames_iff`). The offset a lane computes for such an array is that of the source of its
index, in the direct form and in the strided one (`offset_eq_sourceOffset`).
-/

set_option autoImplicit false

namespace ComputeArray

open Kernel Elementwise

variable {engine : Engine} {operands : List Value} {targets : List ElementType} {shape : List Nat}

/-! ### Offsets -/

/-- The strides of the operands by name, as they are bound for a pass over a shape. -/
def inputStrides (engine : Engine) (shape : List Nat) (items : List (String × Value))
    (name : String) : List Nat :=
  ((Action.strideTables engine shape items).lookup name).getD []

theorem strideTable?_name {item : String × Value} {table : String × List Nat}
    (h : Action.strideTable? engine shape item = some table) : table.1 = item.1 := by
  unfold Action.strideTable? at h
  split at h
  · cases h
    rfl
  · cases h

theorem strideTables_names (engine : Engine) (shape : List Nat) (items : List (String × Value)) :
    ((Action.strideTables engine shape items).map Prod.fst).Sublist
      (items.map Prod.fst ++ ["out"]) := by
  rw [Action.strideTables, List.map_append]
  refine List.Sublist.append_right ?_ _
  induction items with
  | nil => exact List.Sublist.refl _
  | cons item rest ih =>
    cases htable : Action.strideTable? engine shape item with
    | none =>
      rw [List.filterMap_cons_none htable, List.map_cons]
      exact ih.cons item.1
    | some table =>
      rw [List.filterMap_cons_some htable, List.map_cons, List.map_cons, strideTable?_name htable]
      exact ih.cons_cons item.1

theorem inputStrides_eq {items : List (String × Value)} {name described : String} {buffer : Nat}
    (hnodup : (items.map Prod.fst ++ ["out"]).Nodup)
    (hmem : (name, Value.array buffer described) ∈ items) :
    inputStrides engine shape items name = Layout.boundStrides (engine.array buffer).shape
      (engine.array buffer).strides shape := by
  have htable : (name, Layout.boundStrides (engine.array buffer).shape
      (engine.array buffer).strides shape) ∈ Action.strideTables engine shape items :=
    List.mem_append_left _ (List.mem_filterMap.mpr ⟨_, hmem, rfl⟩)
  rw [inputStrides, lookup_of_mem (hnodup.sublist (strideTables_names engine shape items)) htable]
  rfl

/-- In both forms, the offset of an array is that of the source. -/
theorem offset_eq_sourceOffset {items : List (String × Value)} {name described : String}
    {buffer i : Nat} {arrays : List ArrayState}
    (hnodup : (items.map Prod.fst ++ ["out"]).Nodup)
    (hmem : (name, Value.array buffer described) ∈ items) (harray : engine.array buffer ∈ arrays)
    (hlaid : (engine.array buffer).WellLaid)
    (hstretches : Shape.Stretches (engine.array buffer).shape shape)
    (hpos : ∀ extent ∈ shape, 0 < extent) (hi : i < Shape.volume shape) :
    offset (Launch.isStrided arrays (shape.map Int.ofNat)) shape (inputStrides engine shape items) i
      name = Layout.sourceOffset (engine.array buffer).shape (engine.array buffer).strides
        (Shape.index shape i) := by
  by_cases hstrided : Launch.isStrided arrays (shape.map Int.ofNat) = true
  · rw [offset, if_pos hstrided, inputStrides_eq hnodup hmem]
    exact Layout.offsetAt_boundStrides hstretches hlaid.lengths (Shape.index_lt hpos hi)
  · rw [offset, if_neg hstrided]
    rw [Launch.isStrided, List.any_eq_true, not_exists] at hstrided
    have hdirect := hstrided (engine.array buffer)
    simp only [harray, true_and, Bool.or_eq_true, decide_eq_true_eq, not_or, ne_eq, not_not,
      Bool.not_eq_true] at hdirect
    have hshape : (engine.array buffer).shape = shape :=
      List.map_injective_iff.mpr (fun _ _ ↦ Int.ofNat_inj.mp) hdirect.2
    rw [hlaid.strides hdirect.1, hshape, Layout.sourceOffset_of_contiguous hpos hi]

/-! ### Operands by name -/

theorem exists_forall₂_zip {β γ δ : Type} {R : β → γ → Prop} {S : β → γ → δ → Prop} {items : List β}
    {others : List γ} (h : List.Forall₂ R items others)
    (hresult : ∀ item ∈ items, ∀ other, R item other → ∃ result, S item other result) :
    ∃ results,
      List.Forall₂ (fun both result ↦ S both.1 both.2 result) (items.zip others) results := by
  induction h with
  | nil => exact ⟨[], .nil⟩
  | @cons item other items others hfirst _ ih =>
    obtain ⟨result, hS⟩ := hresult item List.mem_cons_self other hfirst
    obtain ⟨results, hrest⟩ := ih fun later hmem ↦ hresult later (List.mem_cons_of_mem item hmem)
    exact ⟨result :: results, .cons hS hrest⟩

section Zip

variable {β γ δ : Type} {names : List β} {values : List γ} {results : List δ}

theorem zip_eq_map_zip_left (h : names.length ≤ values.length) :
    names.zip results = ((names.zip values).zip results).map fun both ↦ (both.1.1, both.2) := by
  conv_lhs => rw [← List.map_fst_zip h, List.zip_map_left]
  rfl

theorem eq_map_zip_right (h : values.length ≤ names.length)
    (hresults : (names.zip values).length ≤ results.length) :
    values = ((names.zip values).zip results).map fun both ↦ both.1.2 := by
  conv_lhs => rw [← List.map_snd_zip h, ← List.map_fst_zip hresults, List.map_map]
  rfl

theorem exists_mem_zip_zip {name : β} {value : γ} (h : (name, value) ∈ names.zip values)
    (hlength : results.length = values.length) :
    ∃ result, (name, value, result) ∈ names.zip (values.zip results) := by
  obtain ⟨k, hk⟩ := List.mem_iff_getElem?.mp h
  obtain ⟨hname, hvalue⟩ := List.getElem?_zip_eq_some.mp hk
  have hlt : k < results.length := by
    rw [hlength]
    exact (List.getElem?_eq_some_iff.mp hvalue).1
  refine ⟨results[k], List.mem_iff_getElem?.mpr ⟨k, ?_⟩⟩
  rw [List.getElem?_zip_eq_some]
  refine ⟨hname, ?_⟩
  rw [List.getElem?_zip_eq_some]
  exact ⟨hvalue, List.getElem?_eq_getElem hlt⟩

end Zip

theorem mem_arrays {values : List Value} {buffer : Nat} {described : String}
    (h : Value.array buffer described ∈ values) : buffer ∈ Value.arrays values :=
  List.mem_filterMap.mpr ⟨_, h, rfl⟩

/-- The arrays among planned operands are those among the values. -/
theorem mem_arrayNames_iff {plan : OperandPlan} {names : List String} {name : String}
    (hlength : targets.length = operands.length) (hnames : names.length = operands.length)
    (hplanned : List.Forall₂ (OperandPlan.Planned engine plan) (names.zip (operands.zip targets))
      plan.operands) :
    name ∈ arrayNames (names.zip plan.operands) ↔
      ∃ buffer described, (name, Value.array buffer described) ∈ names.zip operands := by
  have hcount : (operands.zip targets).length = operands.length := by simp [hlength]
  have hzip : names.zip plan.operands =
      ((names.zip (operands.zip targets)).zip plan.operands).map fun both ↦ (both.1.1, both.2) :=
    zip_eq_map_zip_left (by omega)
  have hboth : ∀ item operand, (item, operand) ∈ (names.zip (operands.zip targets)).zip
      plan.operands → OperandPlan.Planned engine plan item operand :=
    fun _ _ hmem ↦ (List.forall₂_iff_zip.mp hplanned).2 hmem
  unfold arrayNames arrayInputs
  rw [hzip]
  constructor
  · intro h
    obtain ⟨input, hinput, rfl⟩ := List.mem_map.mp h
    obtain ⟨hmem, hscalar⟩ := List.mem_filter.mp hinput
    obtain ⟨⟨item, operand⟩, hitem, rfl⟩ := List.mem_map.mp hmem
    have hvalue := mem_zip_of_mem_zip_zip (List.of_mem_zip hitem).1
    cases hboth _ _ hitem with
    | @array name buffer slot described target bound => exact ⟨buffer, described, hvalue⟩
    | @scalar name value constant target noArray stored listed =>
      simp [Operand.isScalar] at hscalar
  · rintro ⟨buffer, described, h⟩
    obtain ⟨target, hitem⟩ := exists_mem_zip_zip h hlength
    obtain ⟨k, hk, hat⟩ := List.getElem_of_mem hitem
    have hk' : k < plan.operands.length := by
      rw [← hplanned.length_eq]
      exact hk
    have hmem : ((name, Value.array buffer described, target), plan.operands[k]) ∈
        (names.zip (operands.zip targets)).zip plan.operands := by
      refine List.mem_iff_getElem?.mpr ⟨k, List.getElem?_zip_eq_some.mpr ⟨?_, ?_⟩⟩
      · rw [← hat]
        exact List.getElem?_eq_getElem hk
      · exact List.getElem?_eq_getElem hk'
    refine List.mem_map.mpr ⟨(name, plan.operands[k]), List.mem_filter.mpr
      ⟨List.mem_map.mpr ⟨_, hmem, rfl⟩, ?_⟩, rfl⟩
    generalize plan.operands[k] = operand at hmem
    cases hboth _ _ hmem with
    | array bound => rfl
    | scalar noArray stored listed => exact absurd rfl (noArray buffer described)

end ComputeArray
