import ComputeArray.Proofs.Kernel.Operation
import ComputeArray.Proofs.Launch.Operands
import ComputeArray.Proofs.Run.Fixture

/-!
# Lanes of elementwise passes

A lane of the pass made for an operation reads each array at the source of its index, in the direct
form and in the strided one, and stores what the operation makes of the elements it has read
(`computesAtSources_of_elementwisePass`). All arithmetic on the way is exact. That stays true while
the arrays keep their layouts and the stride buffers their bytes (`ComputesAtSources.later`).
-/

set_option autoImplicit false

namespace ComputeArray

open Engine Kernel Elementwise

/-- The output as it is described to the kernel of a pass. -/
def outOperand (engine : Engine) (result : ElementType) (slot target : Nat) : Operand :=
  ⟨some slot, (engine.array target).element.name,
    OperandPlan.conversion result (engine.array target).element⟩

/-- A lane has read each array among the operands at the source of its index, which is one of the
array's elements. -/
structure ReadAtSources {α : Type} (engine : Engine) (operation : Operation) (operands : List Value)
    (strided : Bool) (index : List Nat) (machine : Machine α) (last : State α) : Prop where
  offset : ∀ name buffer described,
    (name, Value.array buffer described) ∈ operation.template.operands.zip operands →
      machine.eval last (position strided name) =
        some (.word (Layout.sourceOffset (engine.array buffer).shape (engine.array buffer).strides
          index))
  within : ∀ buffer ∈ Value.arrays operands,
    (Layout.sourceOffset (engine.array buffer).shape (engine.array buffer).strides index : Int) <
      (engine.array buffer).count

/-- What a pass computes. Its source is that of the kernel which the operation has for the planned
operands, strided or not. On any exact machine and for any contents that reach as far as the arrays
count, the lane of each index of the shape reads the arrays at the sources of the index, and stores
what the operation makes of the elements there. -/
def ComputesAtSources (engine : Engine) (operation : Operation) (operands : List Value)
    (targets : List ElementType) (result : ElementType) (shape : List Nat) (strided : Bool)
    (target : Nat) (device : Device) (pass : Dispatch) : Prop :=
  ∃ (plan : OperandPlan) (slots : Option StrideSlots) (kernel : Kernel),
    List.Forall₂ (OperandPlan.Planned engine plan)
      (operation.template.operands.zip (operands.zip targets)) plan.operands ∧
    slots.isSome = strided ∧
    operation.kernel engine.workgroupSize plan.operands
      (outOperand engine result plan.bindings.length target) slots = .ok kernel ∧
    pass.source = kernel.source ∧
    ∀ {α : Type} (machine : Machine α) (scalar : Value → α) (contents : Nat → List α)
      (invocation : Invocation) (rounds : Nat), machine.arithmetic.Faithful →
      (∀ buffer ∈ Value.arrays operands,
        (engine.array buffer).count ≤ ((contents buffer).length : Int)) →
      Shape.volume shape ≤ (contents target).length →
      invocation.number engine.workgroupSize < Shape.volume shape → shape.length ≤ rounds →
      let i := invocation.number engine.workgroupSize
      let constants := pass.constant fun value ↦ Datum.element (scalar value)
      let cells := pass.cells device contents
      ∃ elements last,
        List.Forall₂ (ElementAt engine contents scalar (Shape.index shape i))
          (operands.zip targets) elements ∧
        kernel.runLane machine rounds constants cells invocation = some last ∧
        ReadAtSources engine operation operands strided (Shape.index shape i) machine last ∧
        last.arrays = Function.update (kernel.start constants cells invocation).arrays "out"
          (some (((contents target).map Datum.element).set i
            (.element ((outOperand engine result plan.bindings.length target).converted machine
              (operation.combine machine plan.operands
                (List.zipWith (fun operand element ↦ operand.converted machine element)
                  plan.operands elements))))))

variable {engine : Engine} {operation : Operation} {operands : List Value}
  {targets : List ElementType} {result : ElementType} {shape : List Nat} {strided : Bool}
  {target : Nat} {pass : Dispatch} {buffers : List Nat}

/-- How the parts of an elementwise pass belong together. -/
structure Made (engine : Engine) (operation : Operation) (operands : List Value)
    (targets : List ElementType) (result : ElementType) (strided : Bool) (target : Nat)
    (plan : OperandPlan) (helpers : List (String × Nat)) (kernel : Kernel) (pass : Dispatch) :
    Prop where
  planned : (operation.template.operands.zip (operands.zip targets)).foldlM
    (fun plan (name, value, element) ↦ plan.add engine name value element) OperandPlan.empty =
      .ok plan
  built : operation.kernel engine.workgroupSize plan.operands
    (outOperand engine result plan.bindings.length target)
    (if strided then some (Launch.strideSlots plan.bindings.length helpers) else none) = .ok kernel
  source : pass.source = kernel.source
  constants : pass.constants = plan.constants
  bindings : pass.bindings = plan.bindings ++ [(.array target, .write)] ++
    (helpers.map Prod.snd).map fun buffer ↦ (Resource.plain buffer, Mode.read)

/-- An elementwise pass is made of a plan, stride buffers and a kernel. -/
theorem made_of_elementwisePass {extents : List Int}
    (h : outcomeOf (Action.elementwisePass operation operands targets result extents strided target)
      engine = .ok (pass, buffers)) :
    ∃ plan helpers kernel,
      Made engine operation operands targets result strided target plan helpers kernel pass ∧
      outcomeOf (Action.stridesBuffersIf strided operation.template.operands operands extents)
        engine = .ok helpers ∧
      buffers = helpers.map Prod.snd ∧
      stateAfter (Action.elementwisePass operation operands targets result extents strided target)
        engine = stateAfter (Action.stridesBuffersIf strided operation.template.operands operands
          extents) engine := by
  simp only [Action.elementwisePass, Action.array, Action.ofExcept, outcomeOf_bind_eq_ok,
    stateAfter_bind, outcomeOf_get, stateAfter_get, outcomeOf_ofExcept, stateAfter_ofExcept,
    outcomeOf_pure, stateAfter_pure] at h ⊢
  obtain ⟨_, hengine, plan, hplan, array, ⟨_, hfound, harray⟩, helpers, hhelpers, kernel, hkernel,
    lanes, hlanes, hmade⟩ := h
  cases hengine
  cases hfound
  cases harray
  cases hmade
  refine ⟨plan, helpers, kernel, ⟨hplan, hkernel, rfl, rfl, rfl⟩, hhelpers, rfl, ?_⟩
  simp only [hplan, outcomeOf_bind, outcomeOf_get, stateAfter_get, outcomeOf_pure, hhelpers,
    hkernel, hlanes]

namespace Made

variable {plan : OperandPlan} {helpers : List (String × Nat)} {kernel : Kernel}

/-- Every operand of a made pass is planned. -/
theorem forall₂_planned
    (hmade : Made engine operation operands targets result strided target plan helpers kernel pass)
    (hcount : operands.length = operation.template.operands.length)
    (htypes : targets.length = operands.length) :
    List.Forall₂ (OperandPlan.Planned engine plan)
      (operation.template.operands.zip (operands.zip targets)) plan.operands := by
  have hnames : (operation.template.operands.zip (operands.zip targets)).map Prod.fst =
      operation.template.operands := by
    refine List.map_fst_zip ?_
    rw [List.length_zip]
    omega
  have hnodup : operation.template.operands.Nodup :=
    (List.nodup_append.mp (List.nodup_append.mp (free_operands operation.template).declared).1).1
  obtain ⟨planned, hoperands, hplanned, -⟩ :=
    OperandPlan.planned_of_foldlM hmade.planned (by rwa [hnames]) (fun _ _ ↦ rfl)
  have hsame : plan.operands = planned := hoperands
  rwa [hsame]

variable
  (hmade : Made engine operation operands targets result strided target plan helpers kernel pass)
include hmade

theorem bindings_prefix : plan.bindings <+: pass.bindings := by
  rw [hmade.bindings, List.append_assoc]
  exact List.prefix_append _ _

/-- The output is bound after the operands. -/
theorem getElem?_bindings :
    pass.bindings[plan.bindings.length]? = some (.array target, .write) := by
  rw [hmade.bindings, List.append_assoc, List.getElem?_append_right (Nat.le_refl _), Nat.sub_self]
  rfl

end Made

/-- A call of an operation on operands that broadcast to a shape, all
numbers of elements and offsets being words. -/
structure Broadcasts (engine : Engine) (operation : Operation) (operands : List Value)
    (targets : List ElementType) (shape : List Nat) : Prop where
  elementwise : operation.IsElementwise
  count : operands.length = operation.template.operands.length
  types : targets.length = operands.length
  laid : ∀ buffer ∈ Value.arrays operands, (engine.array buffer).WellLaid
  stretches : ∀ buffer ∈ Value.arrays operands,
    Shape.Stretches (engine.array buffer).shape shape
  counts : ∀ buffer ∈ Value.arrays operands, (engine.array buffer).count ≤ (wordCount : Int)
  nonempty : shape ≠ []
  positive : ∀ extent ∈ shape, 0 < extent
  volume : Shape.volume shape < wordCount
  rank : shape.length < wordCount
  lanes : 0 < engine.workgroupSize
  width : engine.workgroupSize.toNat < wordCount

namespace Broadcasts

variable (hcall : Broadcasts engine operation operands targets shape)
include hcall

theorem nodup_names :
    (((operation.template.operands.zip operands).map Prod.fst) ++ ["out"]).Nodup := by
  rw [List.map_fst_zip (Nat.le_of_eq hcall.count.symm)]
  exact (List.nodup_append.mp (free_operands operation.template).declared).1

theorem within {buffer i : Nat} (hmem : buffer ∈ Value.arrays operands)
    (hi : i < Shape.volume shape) :
    (Layout.sourceOffset (engine.array buffer).shape (engine.array buffer).strides
      (Shape.index shape i) : Int) < (engine.array buffer).count :=
  ArrayState.sourceOffset_lt_count (hcall.laid buffer hmem) (hcall.stretches buffer hmem)
    hcall.positive (Nat.lt_trans hcall.volume (by decide)) (Shape.index_lt hcall.positive hi)

theorem offset_eq {name described : String} {buffer i : Nat}
    (hmem : (name, Value.array buffer described) ∈ operation.template.operands.zip operands)
    (hi : i < Shape.volume shape) :
    offset (Launch.isStrided ((Value.arrays operands).map engine.array) (shape.map Int.ofNat)) shape
        (inputStrides engine shape (operation.template.operands.zip operands)) i name =
      Layout.sourceOffset (engine.array buffer).shape (engine.array buffer).strides
        (Shape.index shape i) := by
  have hbuffer := mem_arrays (List.of_mem_zip hmem).2
  exact offset_eq_sourceOffset hcall.nodup_names hmem (List.mem_map_of_mem hbuffer)
    (hcall.laid buffer hbuffer) (hcall.stretches buffer hbuffer) hcall.positive hi

theorem length_planned {plan : OperandPlan}
    (hplanned : List.Forall₂ (OperandPlan.Planned engine plan)
      (operation.template.operands.zip (operands.zip targets)) plan.operands) :
    plan.operands.length = operation.template.operands.length := by
  rw [← hplanned.length_eq, List.length_zip, List.length_zip, ← hcall.count, hcall.types,
    Nat.min_self, Nat.min_self]

/-- The offsets of the arrays among planned operands are words. -/
theorem offset_lt_wordCount {plan : OperandPlan} {name : String} {i : Nat}
    (hplanned : List.Forall₂ (OperandPlan.Planned engine plan)
      (operation.template.operands.zip (operands.zip targets)) plan.operands)
    (hmem : name ∈ arrayNames (operation.template.operands.zip plan.operands))
    (hi : i < Shape.volume shape) :
    offset (Launch.isStrided ((Value.arrays operands).map engine.array) (shape.map Int.ofNat)) shape
      (inputStrides engine shape (operation.template.operands.zip operands)) i name <
        wordCount := by
  obtain ⟨buffer, described, hitem⟩ :=
    (mem_arrayNames_iff hcall.types hcall.count.symm hplanned).mp hmem
  have hbuffer := mem_arrays (List.of_mem_zip hitem).2
  have hlt := Int.lt_of_lt_of_le (hcall.within hbuffer hi) (hcall.counts buffer hbuffer)
  rw [hcall.offset_eq hitem hi]
  exact Int.ofNat_lt.mp hlt

/-- The strides a strided pass binds are those its lanes walk by. -/
theorem walked {α : Type} {plan : OperandPlan} {helpers : List (String × Nat)} {device : Device}
    {contents : Nat → List α}
    (hplanned : List.Forall₂ (OperandPlan.Planned engine plan)
      (operation.template.operands.zip (operands.zip targets)) plan.operands)
    (hhold : Action.AllHold device helpers
      (Action.strideTables engine shape (operation.template.operands.zip operands)))
    (hbindings : pass.bindings = plan.bindings ++ [(.array target, .write)] ++
      (helpers.map Prod.snd).map fun buffer ↦ (Resource.plain buffer, Mode.read)) :
    Walked (operation.template.operands.zip plan.operands) shape
      (inputStrides engine shape (operation.template.operands.zip operands))
      (Launch.strideSlots plan.bindings.length helpers) (pass.cells device contents) := by
  have hnodup := hcall.nodup_names.sublist
    (strideTables_names engine shape (operation.template.operands.zip operands))
  have hlists {name : String} {words : List Nat}
      (hmem : (name, words) ∈ Action.strideTables engine shape
        (operation.template.operands.zip operands)) :
      Lists (Launch.strideSlots plan.bindings.length helpers) (pass.cells device contents) name
        words :=
    lists_of_allHold hhold hnodup hbindings List.length_append hmem
  have harray {name : String}
      (hmem : name ∈ arrayNames (operation.template.operands.zip plan.operands)) :=
    (mem_arrayNames_iff hcall.types hcall.count.symm hplanned).mp hmem
  refine ⟨hlists (List.mem_append_right _ (List.mem_singleton_self _)), fun name hmem ↦ ?_,
    fun name hmem ↦ ?_⟩
  · obtain ⟨buffer, described, hitem⟩ := harray hmem
    rw [inputStrides_eq hcall.nodup_names hitem]
    exact hlists (List.mem_append_left _ (List.mem_filterMap.mpr ⟨_, hitem, rfl⟩))
  · obtain ⟨buffer, described, hitem⟩ := harray hmem
    have hbuffer := mem_arrays (List.of_mem_zip hitem).2
    rw [inputStrides_eq hcall.nodup_names hitem]
    exact Layout.length_boundStrides (hcall.stretches buffer hbuffer)
      (hcall.laid buffer hbuffer).lengths

/-- The stride buffers of a pass hold its strides if it is strided. -/
theorem allHold {strided : Bool} {helpers : List (String × Nat)} (hstrided : strided = true)
    (h : outcomeOf (Action.stridesBuffersIf strided operation.template.operands operands
      (shape.map Int.ofNat)) engine = .ok helpers) :
    Action.AllHold (stateAfter (Action.stridesBuffersIf strided operation.template.operands operands
        (shape.map Int.ofNat)) engine).device helpers
      (Action.strideTables engine shape (operation.template.operands.zip operands)) := by
  unfold Action.stridesBuffersIf at h ⊢
  rw [if_pos hstrided] at h ⊢
  refine Action.holds_of_stridesBuffers (fun value hmem buffer described hvalue ↦ ?_) h
  have hbuffer : buffer ∈ Value.arrays operands := mem_arrays (hvalue ▸ hmem)
  exact ⟨hcall.stretches buffer hbuffer, (hcall.laid buffer hbuffer).lengths⟩

end Broadcasts

/-- Each operand of a made pass is given an element, that at the source of the index. -/
theorem exists_elements {α : Type} (hcall : Broadcasts engine operation operands targets shape)
    {plan : OperandPlan} {device : Device} {contents : Nat → List α} {scalar : Value → α} {i : Nat}
    {read : String → Nat}
    (hplanned : List.Forall₂ (OperandPlan.Planned engine plan)
      (operation.template.operands.zip (operands.zip targets)) plan.operands)
    (hbindings : plan.bindings <+: pass.bindings) (hconstants : pass.constants = plan.constants)
    (hcontents : ∀ buffer ∈ Value.arrays operands,
      (engine.array buffer).count ≤ ((contents buffer).length : Int))
    (hi : i < Shape.volume shape)
    (hread : ∀ name buffer described,
      (name, Value.array buffer described) ∈ operation.template.operands.zip operands →
        read name = Layout.sourceOffset (engine.array buffer).shape (engine.array buffer).strides
          (Shape.index shape i)) :
    ∃ elements,
      List.Forall₂ (ElementAt engine contents scalar (Shape.index shape i)) (operands.zip targets)
        elements ∧
      List.Forall₂ (Given (pass.constant fun value ↦ .element (scalar value))
        (pass.cells device contents) read) (operation.template.operands.zip plan.operands)
        elements := by
  have hcount : (operands.zip targets).length = operands.length := by simp [hcall.types]
  have hnames : operation.template.operands.length = operands.length := hcall.count.symm
  have hgiven : ∀ item ∈ operation.template.operands.zip (operands.zip targets), ∀ operand,
      OperandPlan.Planned engine plan item operand →
      ∃ element, ElementAt engine contents scalar (Shape.index shape i) item.2 element ∧
        Given (pass.constant fun value ↦ .element (scalar value)) (pass.cells device contents) read
          (item.1, operand) element := by
    intro item hmem operand hitem
    refine given_of_planned hitem hbindings hconstants fun buffer described hvalue ↦ ?_
    have hpair := mem_zip_of_mem_zip_zip hmem
    rw [hvalue] at hpair
    have hbuffer := mem_arrays (List.of_mem_zip hpair).2
    have hlt := Int.lt_of_lt_of_le (hcall.within hbuffer hi) (hcontents buffer hbuffer)
    rw [hread item.1 buffer described hpair]
    exact ⟨rfl, Int.ofNat_lt.mp hlt⟩
  obtain ⟨elements, helements⟩ := exists_forall₂_zip hplanned hgiven
  have hvalues : operands.zip targets = ((operation.template.operands.zip
      (operands.zip targets)).zip plan.operands).map fun both ↦ both.1.2 :=
    eq_map_zip_right (by omega) (Nat.le_of_eq hplanned.length_eq)
  have hinputs : operation.template.operands.zip plan.operands =
      ((operation.template.operands.zip (operands.zip targets)).zip plan.operands).map
        fun both ↦ (both.1.1, both.2) :=
    zip_eq_map_zip_left (by omega)
  refine ⟨elements, ?_, ?_⟩
  · rw [hvalues, List.forall₂_map_left_iff]
    exact helements.imp fun _ _ hboth ↦ hboth.1
  · rw [hinputs, List.forall₂_map_left_iff]
    exact helements.imp fun _ _ hboth ↦ hboth.2

theorem types_of_planned {plan : OperandPlan}
    (hplanned : List.Forall₂ (OperandPlan.Planned engine plan)
      (operation.template.operands.zip (operands.zip targets)) plan.operands) :
    ∀ operand ∈ plan.operands,
      operand.type ≠ "arrayLength" ∧ operand.conversion ≠ "arrayLength" := by
  intro operand hmem
  obtain ⟨item, -, hitem⟩ := exists_of_forall₂ hplanned hmem
  exact hitem.types

/-- The names of the inputs have no part in the elements they are given. -/
theorem zipWith_converted {α : Type} {machine : Machine α} {names : List String}
    {planned : List Operand} {elements : List α} (hcount : planned.length ≤ names.length) :
    List.zipWith (fun (input : String × Operand) element ↦ input.2.converted machine element)
        (names.zip planned) elements =
      List.zipWith (fun operand element ↦ operand.converted machine element) planned elements := by
  conv_rhs => rw [← List.map_snd_zip hcount, List.zipWith_map_left]

/-- The pass made for operands that broadcast to a shape computes, in each lane, the operation on
what the operands have at the sources of its index. -/
theorem computesAtSources_of_elementwisePass
    (hcall : Broadcasts engine operation operands targets shape) {strided : Bool}
    (hstrided : strided =
      Launch.isStrided ((Value.arrays operands).map engine.array) (shape.map Int.ofNat))
    (h : outcomeOf (Action.elementwisePass operation operands targets result (shape.map Int.ofNat)
      strided target) engine = .ok (pass, buffers)) :
    ComputesAtSources engine operation operands targets result shape strided target
      (stateAfter (Action.elementwisePass operation operands targets result (shape.map Int.ofNat)
        strided target) engine).device pass := by
  obtain ⟨plan, helpers, kernel, hmade, hhelpers, -, hstate⟩ := made_of_elementwisePass h
  have hplanned := hmade.forall₂_planned hcall.count hcall.types
  have hcount : plan.operands.length = operation.template.operands.length :=
    hcall.length_planned hplanned
  rw [hstate]
  refine ⟨plan, _, kernel, hplanned, by cases strided <;> rfl, hmade.built, hmade.source, ?_⟩
  intro α machine scalar contents invocation rounds hfaithful hcontents htarget hi hrounds
  set i := invocation.number engine.workgroupSize with hidef
  set device := (stateAfter (Action.stridesBuffersIf strided operation.template.operands operands
    (shape.map Int.ofNat)) engine).device with hdevice
  set read := offset strided shape
    (inputStrides engine shape (operation.template.operands.zip operands)) i with hreadDef
  have hread : ∀ name buffer described,
      (name, Value.array buffer described) ∈ operation.template.operands.zip operands →
        read name = Layout.sourceOffset (engine.array buffer).shape (engine.array buffer).strides
          (Shape.index shape i) := by
    intro name buffer described hmem
    rw [hreadDef, hstrided]
    exact hcall.offset_eq hmem hi
  obtain ⟨elements, helements, hgiven⟩ : ∃ elements,
      List.Forall₂ (ElementAt engine contents scalar (Shape.index shape i)) _ elements ∧
        List.Forall₂ (Given (pass.constant fun value ↦ .element (scalar value))
          (pass.cells device contents) read) _ elements :=
    exists_elements hcall hplanned hmade.bindings_prefix hmade.constants hcontents hi hread
  -- the kernel that was built, in the form that its lanes run in
  set slots := if strided then some (Launch.strideSlots plan.bindings.length helpers) else none
    with hslots
  have hform : slots.isSome = strided := by
    rw [hslots]
    cases strided <;> rfl
  set out := outOperand engine result plan.bindings.length target with hout
  obtain ⟨body, hbody, hcomputes⟩ : ∃ body, operation.kernel engine.workgroupSize plan.operands out
      slots = Elementwise.kernel engine.workgroupSize
        (operation.template.operands.zip plan.operands) out body slots ∧
      Computes machine body (operation.combine machine plan.operands) plan.operands.length :=
    Operation.kernel_eq hcall.elementwise hcount (types_of_planned hplanned)
  rw [hmade.built] at hbody
  have hinputNames : (operation.template.operands.zip plan.operands).map Prod.fst =
      operation.template.operands :=
    List.map_fst_zip (by omega)
  have hinputCount : (operation.template.operands.zip plan.operands).length =
      plan.operands.length := by
    rw [List.length_zip, hcount, Nat.min_self]
  have hbound : ∀ name ∈ arrayNames (operation.template.operands.zip plan.operands),
      read name < wordCount := by
    intro name hmem
    rw [hreadDef, hstrided]
    exact hcall.offset_lt_wordCount hplanned hmem hi
  have hwalked : ∀ found, slots = some found →
      Walked (operation.template.operands.zip plan.operands) shape
        (inputStrides engine shape (operation.template.operands.zip operands)) found
        (pass.cells device contents) := by
    intro found hfound
    have htrue : strided = true := by rw [← hform, hfound]; rfl
    rw [hslots, if_pos htrue] at hfound
    cases hfound
    exact hcall.walked hplanned (hcall.allHold htrue hhelpers) hmade.bindings
  obtain ⟨last, hlast, hpositions, harrays⟩ := runLane_kernel hfaithful hbody.symm
    (by rw [hinputNames]; exact free_operands operation.template) rfl hcall.lanes hcall.width
    (Nat.lt_trans hi hcall.volume) (OperandPlan.conversion_ne_arrayLength _ _)
    (by rw [hinputCount]; exact hcomputes) (Dispatch.cells_array hmade.getElem?_bindings)
    (by rw [List.length_map]; exact Nat.lt_of_lt_of_le hi htarget)
    (by rw [hform]; exact hgiven) hwalked hcall.nonempty hcall.positive hi hcall.rank
    (by rw [hform]; exact hbound) hrounds
  rw [zipWith_converted (Nat.le_of_eq hcount)] at harrays
  refine ⟨elements, last, helements, hlast, ⟨fun name buffer described hmem ↦ ?_,
    fun buffer hmem ↦ hcall.within hmem hi⟩, harrays⟩
  have hname := (mem_arrayNames_iff hcall.types hcall.count.symm hplanned).mpr
    ⟨buffer, described, hmem⟩
  have hposition := hpositions name hname
  rw [hform] at hposition
  rw [hposition, ← hread name buffer described hmem]

/-! ### Later states -/

section Later

variable {before after : Engine} {device current : Device} {α : Type} {index : List Nat}

theorem OperandPlan.Planned.later {plan : OperandPlan} {item : String × Value × ElementType}
    {operand : Operand} (hsame : SameFixture before after)
    (h : OperandPlan.Planned before plan item operand) :
    OperandPlan.Planned after plan item operand := by
  cases h with
  | @array name buffer slot described type bound =>
    have hlater : OperandPlan.Planned after plan (name, .array buffer described, type) _ :=
      .array bound
    rwa [hsame.element] at hlater
  | scalar noArray stored listed => exact .scalar noArray stored listed

theorem sourceOffset_later (hsame : SameFixture before after) (buffer : Nat) (index : List Nat) :
    Layout.sourceOffset (after.array buffer).shape (after.array buffer).strides index =
      Layout.sourceOffset (before.array buffer).shape (before.array buffer).strides index := by
  rw [hsame.shape, hsame.strides]

theorem ElementAt.later {contents : Nat → List α} {scalar : Value → α}
    {item : Value × ElementType} {element : α} (hsame : SameFixture before after)
    (h : ElementAt before contents scalar index item element) :
    ElementAt after contents scalar index item element := by
  cases h with
  | array found => exact .array (by rw [sourceOffset_later hsame, found])
  | scalar noArray stored => exact .scalar noArray stored

theorem ReadAtSources.later {machine : Machine α} {last : State α}
    (hsame : SameFixture before after)
    (h : ReadAtSources before operation operands strided index machine last) :
    ReadAtSources after operation operands strided index machine last where
  offset name buffer described hmem := by
    rw [sourceOffset_later hsame, h.offset name buffer described hmem]
  within buffer hmem := by
    rw [sourceOffset_later hsame, hsame.count]
    exact h.within buffer hmem

/-- The buffers without a host copy that a pass binds are all it finds on the device itself. -/
theorem Dispatch.cells_later
    (hplain : ∀ buffer mode, (Resource.plain buffer, mode) ∈ pass.bindings →
      current.bytesOf buffer = device.bytesOf buffer) (contents : Nat → List α) :
    pass.cells current contents = pass.cells device contents := by
  funext slot
  unfold Dispatch.cells
  split
  · rfl
  · cases hbound : pass.bindings[slot.toNat]? with
    | none => rfl
    | some binding =>
      obtain ⟨resource, mode⟩ := binding
      cases resource with
      | array buffer => rfl
      | plain buffer =>
        have hbytes := hplain buffer mode (List.mem_of_getElem? hbound)
        simp only [Device.sizeOf, hbytes]

/-- A pass computes the same as long as the arrays keep their layouts and the buffers without a host
copy their bytes. -/
theorem ComputesAtSources.later (hsame : SameFixture before after)
    (hplain : ∀ buffer mode, (Resource.plain buffer, mode) ∈ pass.bindings →
      current.bytesOf buffer = device.bytesOf buffer)
    (h : ComputesAtSources before operation operands targets result shape strided target device
      pass) :
    ComputesAtSources after operation operands targets result shape strided target current
      pass := by
  obtain ⟨plan, slots, kernel, hplanned, hslots, hkernel, hsource, hlanes⟩ := h
  have hout (slot : Nat) : outOperand after result slot target =
      outOperand before result slot target := by
    rw [outOperand, outOperand, hsame.element]
  refine ⟨plan, slots, kernel, hplanned.imp fun _ _ ↦ .later hsame, hslots, ?_, hsource, ?_⟩
  · rw [hsame.workgroupSize, hout, hkernel]
  intro α machine scalar contents invocation rounds hfaithful hcontents htarget hi hrounds
  rw [hsame.workgroupSize] at hi
  obtain ⟨elements, last, helements, hlast, hreads, harrays⟩ := hlanes machine scalar contents
    invocation rounds hfaithful (fun buffer hmem ↦ hsame.count buffer ▸ hcontents buffer hmem)
    htarget hi hrounds
  rw [hsame.workgroupSize, Dispatch.cells_later hplain, hout]
  exact ⟨elements, last, helements.imp fun _ _ ↦ .later hsame, hlast, hreads.later hsame, harrays⟩

end Later

end ComputeArray
