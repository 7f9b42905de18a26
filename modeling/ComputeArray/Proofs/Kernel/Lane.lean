import ComputeArray.Proofs.Kernel.Bindings

/-!
# Lanes from their start

Of the inputs of a kernel each is a constant or the cells bound to its slot, and in the strided form
the cells bound to the slot of its strides. A lane that starts with that stores what the kernel
computes from the elements its inputs have at the offsets of the lane (`runLane_kernel`).
-/

set_option autoImplicit false

namespace ComputeArray.Kernel.Elementwise

open Machine

variable {α : Type} {kernel : Kernel} {machine : Machine α} {rounds : Nat}
  {constants : String → Option (Datum α)} {cells : Int → Option (List (Datum α))}
  {invocation : Invocation} {size : Int} {inputs : List (String × Operand)} {out : Operand}
  {result : List Expression → Expression} {strides : Option StrideSlots}

/-! ### Names of inputs -/

/-- The names an invocation knows its number by. -/
def invocationNames : List String := ["id.x", "id.y", "groups.x"]

/-- Names of inputs that nothing else in a kernel is called by. -/
structure Free (names : List String) : Prop where
  offsets : (names.map offsetName).Nodup
  walk : ∀ name ∈ walkNames, name ∉ names.map offsetName
  inputs : ∀ name ∈ names,
    name ∉ walkNames ∧ name ∉ names.map offsetName ∧ name ∉ invocationNames
  declared : ((names ++ ["out"]) ++ (names ++ ["out"]).map stridesName).Nodup

theorem free_operands (template : Template) : Free template.operands := by
  constructor <;> cases template <;> decide

theorem arrayNames_sublist (inputs : List (String × Operand)) :
    (arrayNames inputs).Sublist (inputs.map Prod.fst) :=
  List.filter_sublist.map Prod.fst

theorem Free.hygienic (h : Free (inputs.map Prod.fst)) : Hygienic inputs := by
  have hsublist := arrayNames_sublist inputs
  have hsubset := (hsublist.map offsetName).subset
  refine ⟨⟨h.offsets.sublist (hsublist.map offsetName), fun name hmem hoffset ↦ ?_⟩,
    fun input hmem ↦ ?_, fun input hmem hoffset ↦ ?_⟩
  · exact h.walk name hmem (hsubset hoffset)
  · exact (h.inputs input.1 (List.mem_map_of_mem hmem)).1
  · exact (h.inputs input.1 (List.mem_map_of_mem hmem)).2.1 (hsubset hoffset)

theorem Free.distinct (h : Free (inputs.map Prod.fst)) : Distinct inputs := by
  have hsublist := (arrayNames_sublist inputs).append_right ["out"]
  exact h.declared.sublist (hsublist.append (hsublist.map stridesName))

/-! ### Arrays at the start -/

theorem mem_items_input (h : Elementwise.kernel size inputs out result strides = .ok kernel)
    {input : String × Operand} {slot : Int} (hmem : input ∈ inputs)
    (hslot : input.2.slot = some slot) :
    Item.array (some slot) .read input.1 input.2.type ∈ kernel.items := by
  obtain ⟨strideItems, hitems, -⟩ := items_of_kernel h
  have hitem : Item.array (some slot) .read input.1 input.2.type =
      input.2.item input.1 .read := by
    rw [Operand.item, hslot]
  rw [hitems, hitem]
  simp only [List.mem_append]
  exact .inl (.inl (.inl (.inr (List.mem_map.mpr ⟨input, hmem, rfl⟩))))

theorem mem_items_out (h : Elementwise.kernel size inputs out result strides = .ok kernel)
    {slot : Int} (hslot : out.slot = some slot) :
    Item.array (some slot) .readWrite "out" out.type ∈ kernel.items := by
  obtain ⟨strideItems, hitems, -⟩ := items_of_kernel h
  have hitem : Item.array (some slot) .readWrite "out" out.type = out.item "out" .readWrite := by
    rw [Operand.item, hslot]
  rw [hitems, hitem]
  simp only [List.mem_append]
  exact .inl (.inl (.inr (List.mem_singleton_self _)))

theorem mem_items_strides {slots : StrideSlots}
    (h : Elementwise.kernel size inputs out result (some slots) = .ok kernel) {name : String}
    {slot : Int} (hmem : name ∈ arrayNames inputs ++ ["out"])
    (hslot : slots.lookup name = some (some slot)) :
    Item.array (some slot) .read (stridesName name) "u32" ∈ kernel.items := by
  obtain ⟨strideItems, hitems, -, hsome⟩ := items_of_kernel h
  obtain ⟨item, hitem, hstride⟩ := exists_of_forall₂ (hsome slots rfl).flip hmem
  obtain ⟨found, hfound, rfl⟩ := strideItem_eq_ok hstride
  rw [hslot] at hfound
  cases hfound
  rw [hitems]
  simp only [List.mem_append]
  exact .inl (.inr hitem)

/-! ### What is bound -/

/-- The element an input is given: a constant, or a cell at its offset. -/
structure Given (constants : String → Option (Datum α)) (cells : Int → Option (List (Datum α)))
    (offset : String → Nat) (input : String × Operand) (element : α) : Prop where
  conversion : input.2.conversion ≠ "arrayLength"
  scalar : input.2.slot = none → constants input.1 = some (.element element)
  array : ∀ slot, input.2.slot = some slot →
    ∃ found, cells slot = some found ∧ found[offset input.1]? = some (.element element)

/-- Words bound to the slot under which a table of strides lists a name. -/
def Lists (slots : StrideSlots) (cells : Int → Option (List (Datum α))) (name : String)
    (words : List Nat) : Prop :=
  ∃ slot, slots.lookup name = some (some slot) ∧ cells slot = some (words.map .word)

/-- The strides of a shape and of inputs of as many axes are bound. -/
structure Walked (inputs : List (String × Operand)) (shape : List Nat)
    (inputStrides : String → List Nat) (slots : StrideSlots)
    (cells : Int → Option (List (Datum α))) : Prop where
  out : Lists slots cells "out" (Shape.steps shape)
  listed : ∀ name ∈ arrayNames inputs, Lists slots cells name (inputStrides name)
  lengths : ∀ name ∈ arrayNames inputs, (inputStrides name).length = shape.length

/-- The offset at which a lane reads an input: its own number, or where the strides lead. -/
def offset (strided : Bool) (shape : List Nat) (inputStrides : String → List Nat) (i : Nat)
    (name : String) : Nat :=
  if strided then Layout.offsetAt (inputStrides name) (Shape.index shape i) else i

theorem source_start (h : Elementwise.kernel size inputs out result strides = .ok kernel)
    (hfree : Free (inputs.map Prod.fst)) (hout : out.isScalar = false) {offset : String → Nat}
    {input : String × Operand} {element : α} (hmem : input ∈ inputs)
    (hgiven : Given constants cells offset input element) :
    Source (kernel.start constants cells invocation) offset input element := by
  refine ⟨hgiven.conversion, fun hscalar ↦ ?_, fun harray ↦ ?_⟩
  · have hnames := (hfree.inputs input.1 (List.mem_map_of_mem hmem)).2.2
    simp only [invocationNames, List.mem_cons, List.not_mem_nil, or_false, not_or] at hnames
    change (if input.1 = "id.x" then _ else _) = _
    rw [if_neg hnames.1, if_neg hnames.2.1, if_neg hnames.2.2]
    exact hgiven.scalar (Option.isNone_iff_eq_none.mp hscalar)
  · obtain ⟨slot, hslot⟩ : ∃ slot, input.2.slot = some slot :=
      Option.isSome_iff_exists.mp (by simpa [Operand.isScalar] using harray)
    obtain ⟨found, hfound, helement⟩ := hgiven.array slot hslot
    have hnodup := nodup_declared? h hout hfree.distinct
    exact ⟨found, (arrays_start hnodup (mem_items_input h hmem hslot)).trans hfound, helement⟩

theorem strided_start {slots : StrideSlots}
    (h : Elementwise.kernel size inputs out result (some slots) = .ok kernel)
    (hfree : Free (inputs.map Prod.fst)) (hout : out.isScalar = false) {shape : List Nat}
    {inputStrides : String → List Nat} (hwalked : Walked inputs shape inputStrides slots cells) :
    Strided (arrayNames inputs) shape inputStrides
      (kernel.start constants cells invocation).arrays := by
  have hnodup := nodup_declared? h hout hfree.distinct
  have hlisted (name : String) (words : List Nat) (hmem : name ∈ arrayNames inputs ++ ["out"])
      (hlists : Lists slots cells name words) :
      (kernel.start constants cells invocation).arrays (stridesName name) =
        some (words.map .word) := by
    obtain ⟨slot, hslot, hcells⟩ := hlists
    rw [arrays_start hnodup (mem_items_strides h hmem hslot), hcells]
  refine ⟨hlisted _ _ (by simp) hwalked.out, fun name hmem ↦ ?_, hwalked.lengths⟩
  exact hlisted _ _ (List.mem_append_left _ hmem) (hwalked.listed name hmem)

/-- A lane of an elementwise kernel reads its inputs at their offsets and
stores, at its number, what the kernel computes from their elements. -/
theorem runLane_kernel (hfaithful : machine.arithmetic.Faithful)
    (h : Elementwise.kernel size inputs out result strides = .ok kernel)
    (hfree : Free (inputs.map Prod.fst)) {slot : Int} (hslot : out.slot = some slot)
    {shape : List Nat} {inputStrides : String → List Nat} {combine : List α → α}
    {elements : List α} {target : List (Datum α)} (hsize : 0 < size)
    (hwords : size.toNat < wordCount) (hnumber : invocation.number size < wordCount)
    (hconversion : out.conversion ≠ "arrayLength")
    (hcomputes : Computes machine result combine inputs.length)
    (htarget : cells slot = some target) (hlane : invocation.number size < target.length)
    (hgiven : List.Forall₂
      (Given constants cells
        (offset strides.isSome shape inputStrides (invocation.number size))) inputs elements)
    (hwalked : ∀ slots, strides = some slots → Walked inputs shape inputStrides slots cells)
    (hnonempty : shape ≠ []) (hextents : ∀ extent ∈ shape, 0 < extent)
    (hvolume : invocation.number size < Shape.volume shape) (hrank : shape.length < wordCount)
    (hbound : ∀ name ∈ arrayNames inputs,
      offset strides.isSome shape inputStrides (invocation.number size) name < wordCount)
    (hrounds : shape.length ≤ rounds) :
    ∃ last, kernel.runLane machine rounds constants cells invocation = some last ∧
      (∀ name ∈ arrayNames inputs, machine.eval last (position strides.isSome name) =
        some (.word (offset strides.isSome shape inputStrides (invocation.number size) name))) ∧
      last.arrays = Function.update (kernel.start constants cells invocation).arrays "out"
        (some (target.set (invocation.number size) (.element (out.converted machine (combine
          (List.zipWith (fun input element ↦ input.2.converted machine element) inputs
            elements)))))) := by
  set i := invocation.number size with hi
  have hscalar : out.isScalar = false := by rw [Operand.isScalar, hslot]; rfl
  have hnodup := nodup_declared? h hscalar hfree.distinct
  set start := kernel.start constants cells invocation with hstart
  have hout : start.arrays "out" = some target :=
    (arrays_start hnodup (mem_items_out h hslot)).trans htarget
  have hhygienic := hfree.hygienic
  have hactive : (start.set "i" (.word i)).active = true := rfl
  have hplaced : ∃ after, machine.runAll rounds
      (if strides.isSome then walk (arrayNames inputs) else [.blank])
      (start.set "i" (.word i)) = some after ∧
    Placed inputs strides.isSome (offset strides.isSome shape inputStrides i)
      (start.set "i" (.word i)) after machine := by
    cases hstrides : strides with
    | none => exact placed_direct hactive State.locals_set_self
    | some slots =>
      rw [hstrides] at h hbound
      have hstrided : Strided (arrayNames inputs) shape inputStrides start.arrays :=
        strided_start h hfree hscalar (hwalked slots hstrides)
      exact placed_strided hfaithful hhygienic.apart hstrided hnonempty hextents hvolume
        hnumber hrank hbound hrounds hactive State.locals_set_self
  have hsources : List.Forall₂ (Source start (offset strides.isSome shape inputStrides i))
      inputs elements := by
    have hmembers := (List.forall₂_and_left inputs elements).mpr ⟨fun _ hmem ↦ hmem, hgiven⟩
    exact hmembers.imp fun input element hboth ↦
      source_start h hfree hscalar hboth.1 hboth.2
  have hbody := runAll_body hfaithful hsize hwords hnumber rfl rfl rfl rfl hhygienic hconversion
    hcomputes hout hlane hplaced hsources
  rw [Kernel.runLane, lanes?_kernel h]
  exact hbody

end ComputeArray.Kernel.Elementwise
