import ComputeArray.Proofs.Kernel.Operation
import ComputeArray.Proofs.Lookup

/-!
# Arrays of elementwise kernels

The arrays an elementwise kernel declares have names of their own, so a lane finds under each name
the cells bound to its slot (`arrays_start`).
-/

set_option autoImplicit false

namespace ComputeArray.Kernel

variable {α : Type} {kernel : Kernel} {constants : String → Option (Datum α)}
  {cells : Int → Option (List (Datum α))} {invocation : Invocation}

/-- The name of the array an item declares. -/
def Item.declared? : Item → Option String
  | .array _ _ name _ => some name
  | _ => none

theorem declared?_preamble (operands : List Operand) : (preamble operands).declared? = none := by
  unfold preamble
  split <;> rfl

theorem declared?_item {operand : Operand} (name : String) (access : Access)
    (hslot : operand.isScalar = false) : (operand.item name access).declared? = some name := by
  unfold Operand.item
  unfold Operand.isScalar at hslot
  cases hfound : operand.slot with
  | none =>
    rw [hfound] at hslot
    cases hslot
  | some slot => rfl

theorem lanes?_preamble (operands : List Operand) : (preamble operands).lanes? = none := by
  unfold preamble
  split <;> rfl

theorem lanes?_item (name : String) (operand : Operand) (access : Access) :
    (operand.item name access).lanes? = none := by
  unfold Operand.item
  split <;> rfl

theorem Item.cells?_of_ne {item : Item} {name : String} (h : item.declared? ≠ some name) :
    item.cells? cells name = none := by
  cases item with
  | array slot access declared elements =>
    cases slot with
    | none => rfl
    | some slot => exact if_neg fun heq ↦ h (congrArg some heq)
  | _ => rfl

theorem findSome?_cells? {items : List Item} {slot : Int} {access : Access} {name type : String}
    (hnodup : (items.filterMap Item.declared?).Nodup)
    (hmem : Item.array (some slot) access name type ∈ items) :
    items.findSome? (Item.cells? cells name) = cells slot := by
  induction items with
  | nil => cases hmem
  | cons item rest ih =>
    rw [List.findSome?_cons]
    rcases List.mem_cons.mp hmem with rfl | hlater
    · have hrest : rest.findSome? (Item.cells? cells name) = none := by
        rw [List.findSome?_eq_none_iff]
        intro other hother
        refine Item.cells?_of_ne fun hdeclared ↦ ?_
        have hnames : (name :: rest.filterMap Item.declared?).Nodup := hnodup
        exact (List.nodup_cons.mp hnames).1 (List.mem_filterMap.mpr ⟨other, hother, hdeclared⟩)
      rw [hrest]
      have hself : Item.cells? cells name (.array (some slot) access name type) = cells slot :=
        if_pos rfl
      rw [hself]
      cases cells slot <;> rfl
    · have hrest : (rest.filterMap Item.declared?).Nodup := by
        refine hnodup.sublist ?_
        exact (List.sublist_cons_self item rest).filterMap _
      have hitem : item.cells? cells name = none := by
        refine Item.cells?_of_ne fun hdeclared ↦ ?_
        rw [List.filterMap_cons_some hdeclared, List.nodup_cons] at hnodup
        exact hnodup.1 (List.mem_filterMap.mpr ⟨_, hlater, rfl⟩)
      rw [hitem]
      exact ih hrest hlater

/-- A lane finds under the name of an array the cells bound to its slot. -/
theorem arrays_start {slot : Int} {access : Access} {name type : String}
    (hnodup : (kernel.items.filterMap Item.declared?).Nodup)
    (hmem : Item.array (some slot) access name type ∈ kernel.items) :
    (kernel.start constants cells invocation).arrays name = cells slot :=
  findSome?_cells? hnodup hmem

theorem forall₂_of_mapM_ok {β γ ε : Type} {f : β → Except ε γ} {items : List β}
    {results : List γ} (h : items.mapM f = .ok results) :
    List.Forall₂ (fun item result ↦ f item = .ok result) items results := by
  induction items generalizing results with
  | nil =>
    cases h
    exact .nil
  | cons first rest ih =>
    rw [List.mapM_cons] at h
    cases hfirst : f first with
    | error failure =>
      rw [hfirst] at h
      cases h
    | ok result =>
      rw [hfirst] at h
      cases hrest : rest.mapM f with
      | error failure =>
        rw [hrest] at h
        cases h
      | ok later =>
        rw [hrest] at h
        cases h
        exact .cons hfirst (ih hrest)

namespace Elementwise

variable {size : Int} {inputs : List (String × Operand)} {out : Operand}
  {result : List Expression → Expression} {strides : Option StrideSlots}

/-- The items of an elementwise kernel. -/
theorem items_of_kernel (h : Elementwise.kernel size inputs out result strides = .ok kernel) :
    ∃ strideItems : List Item,
      kernel.items = [preamble ((arrayInputs inputs).map Prod.snd ++ [out])]
        ++ inputs.map (fun (name, operand) ↦ operand.item name .read)
        ++ [out.item "out" .readWrite] ++ strideItems
        ++ [.blank, .lanes size (body size inputs out result strides.isSome)] ∧
      (strides = none → strideItems = []) ∧
      ∀ slots, strides = some slots →
        List.Forall₂ (fun name item ↦ strideItem slots name = .ok item)
          (arrayNames inputs ++ ["out"]) strideItems := by
  unfold Elementwise.kernel at h
  cases strides with
  | none =>
    cases h
    exact ⟨[], rfl, fun _ ↦ rfl, (fun _ h ↦ by cases h)⟩
  | some slots =>
    dsimp only at h
    cases hitems : (((arrayInputs inputs).map Prod.fst) ++ ["out"]).mapM (strideItem slots) with
    | error failure =>
      rw [hitems] at h
      cases h
    | ok strideItems =>
      rw [hitems] at h
      cases h
      refine ⟨strideItems, rfl, (fun h ↦ by cases h), fun found hfound ↦ ?_⟩
      cases hfound
      exact forall₂_of_mapM_ok hitems

theorem strideItem_eq_ok {slots : StrideSlots} {name : String} {item : Item}
    (h : strideItem slots name = .ok item) :
    ∃ slot, slots.lookup name = some slot ∧ item = .array slot .read (stridesName name) "u32" := by
  unfold strideItem at h
  split at h
  · next slot hslot =>
    cases h
    exact ⟨slot, hslot, rfl⟩
  · cases h

theorem declared?_strideItems {slots : StrideSlots} {names : List String} {items : List Item}
    (h : List.Forall₂ (fun name item ↦ strideItem slots name = .ok item) names items) :
    items.filterMap Item.declared? = names.map stridesName := by
  induction h with
  | nil => rfl
  | @cons name item names items hitem _ ih =>
    obtain ⟨slot, -, rfl⟩ := strideItem_eq_ok hitem
    rw [List.map_cons, ← ih]
    rfl

theorem declared?_inputs (inputs : List (String × Operand)) :
    (inputs.map fun (name, operand) ↦ operand.item name .read).filterMap Item.declared? =
      arrayNames inputs := by
  induction inputs with
  | nil => rfl
  | cons input rest ih =>
    obtain ⟨name, slot, type, conversion⟩ := input
    cases slot with
    | none => exact ih
    | some slot => exact congrArg (List.cons name) ih

/-- The names a kernel may declare are all different. -/
def Distinct (inputs : List (String × Operand)) : Prop :=
  ((arrayNames inputs ++ ["out"]) ++ (arrayNames inputs ++ ["out"]).map stridesName).Nodup

theorem nodup_declared? (h : Elementwise.kernel size inputs out result strides = .ok kernel)
    (hslot : out.isScalar = false) (hdistinct : Distinct inputs) :
    (kernel.items.filterMap Item.declared?).Nodup := by
  obtain ⟨strideItems, hitems, hnone, hsome⟩ := items_of_kernel h
  have hnames : kernel.items.filterMap Item.declared? =
      arrayNames inputs ++ ["out"] ++ strideItems.filterMap Item.declared? := by
    rw [hitems, List.filterMap_append, List.filterMap_append, List.filterMap_append,
      List.filterMap_append, declared?_inputs, List.filterMap_cons_none (declared?_preamble _),
      List.filterMap_cons_some (declared?_item "out" .readWrite hslot)]
    simp [Item.declared?]
  rw [hnames]
  cases strides with
  | none =>
    rw [hnone rfl, List.filterMap_nil, List.append_nil]
    exact (List.nodup_append.mp hdistinct).1
  | some slots =>
    rw [declared?_strideItems (hsome slots rfl)]
    exact hdistinct

theorem lanes?_kernel (h : Elementwise.kernel size inputs out result strides = .ok kernel) :
    kernel.items.findSome? Item.lanes? = some (body size inputs out result strides.isSome) := by
  obtain ⟨strideItems, hitems, hnone, hsome⟩ := items_of_kernel h
  have hstrides : ∀ item ∈ strideItems, item.lanes? = none := by
    cases strides with
    | none =>
      rw [hnone rfl]
      intro item hmem
      cases hmem
    | some slots =>
      intro item hmem
      obtain ⟨name, -, hstride⟩ := exists_of_forall₂ (hsome slots rfl) hmem
      obtain ⟨slot, -, rfl⟩ := strideItem_eq_ok hstride
      rfl
  have hinputs : ∀ item ∈ inputs.map (fun (name, operand) ↦ operand.item name .read),
      item.lanes? = none := by
    intro item hmem
    obtain ⟨input, -, rfl⟩ := List.mem_map.mp hmem
    exact lanes?_item _ _ _
  rw [hitems, List.findSome?_append, List.findSome?_append, List.findSome?_append,
    List.findSome?_append, List.findSome?_eq_none_iff.mpr hstrides,
    List.findSome?_eq_none_iff.mpr hinputs]
  simp only [List.findSome?_cons, lanes?_preamble, lanes?_item, List.findSome?_nil, Option.none_or]
  rfl

end Elementwise

end ComputeArray.Kernel
