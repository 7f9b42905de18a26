import ComputeArray.Proofs.Kernel.Fold
import ComputeArray.Proofs.Reduction.Passes
import ComputeArray.Proofs.Run.Fixture

/-!
# Runs of reductions

The passes of a reduction, run one after the other with the lanes of each in any order, leave in the
target the fold of all elements, converted once (`foldsAll_of_chain`). What a reduction writes them
to is an output that was given or a fresh array, and no input (`output_eq_ok`).
-/

set_option autoImplicit false

namespace ComputeArray

open Kernel

variable {α : Type}

/-! ### Running passes -/

/-- The element of a cell that holds one. -/
def Kernel.Datum.element? : Datum α → Option α
  | .element a => some a
  | _ => none

/-- The word an override constant stands for that is declared as a word. -/
def overrideWord : Value → Datum α
  | .int n => .word n.toNat
  | _ => .word 0

namespace Dispatch

/-- The contents of arrays after a pass has left the given cells behind its slots: those of the
arrays it writes have changed. -/
def contentsAfter (pass : Dispatch) (cells : Int → Option (List (Datum α)))
    (contents : Nat → List α) : Nat → List α :=
  pass.bindings.zipIdx.foldl
    (fun contents ((resource, mode), slot) ↦
      if mode = .read then contents
      else Function.update contents resource.buffer
        (((cells (slot : Nat)).getD []).filterMap Datum.element?))
    contents

/-- Runs passes one after the other, each with its kernel and with its lanes in a given order. -/
def runPasses (machine : Machine α) (rounds : Nat) (device : Device) :
    List ((Dispatch × Kernel) × List Invocation) → (Nat → List α) → Option (Nat → List α)
  | [], contents => some contents
  | ((pass, kernel), order) :: rest, contents => do
    let cells ← kernel.runLanes machine rounds (pass.constant overrideWord) order
      (pass.cells device contents)
    runPasses machine rounds device rest (pass.contentsAfter cells contents)

end Dispatch

/-! ### One pass -/

/-- What a reduction makes of two elements. -/
def Operation.folded (machine : Machine α) (operation : Operation) (a b : α) : α :=
  match operation.template with
  | .foldOperator => machine.operator operation.symbol a b
  | _ => machine.function operation.symbol [.element a, .element b]

/-- The kernel of a pass combines elements by the operation. -/
theorem foldKernel_eq {tag : String} {operation : Operation} (machine : Machine α)
    (hfind : Operation.find? tag = some operation) :
    ∃ combine, Fold.Combines machine combine (operation.folded machine) ∧
      ∀ size argument out,
        operation.foldKernel size argument out = Fold.kernel size argument out combine := by
  obtain ⟨-, hoperator, hfunction⟩ := Operation.table_symbols _ (mem_of_lookup hfind)
  unfold Operation.foldKernel Operation.folded
  cases operation.template with
  | foldOperator => exact ⟨_, Fold.combines_operator hoperator, fun _ _ _ ↦ rfl⟩
  | _ => exact ⟨_, Fold.combines_function hfunction, fun _ _ _ ↦ rfl⟩

variable {engine : Engine} {operation : Operation} {element : ElementType}
  {source target destination n lanes : Nat} {machine : Machine α} {rounds : Nat}
  {contents : Nat → List α} {order : List Invocation}

/-- The cells a pass leaves behind its second slot are the contents of its destination. -/
theorem contentsAfter_foldDispatch (cells : Int → Option (List (Datum α))) (results : List α) :
    (Action.foldDispatch engine operation element source destination n lanes).contentsAfter
        (Function.update cells 1 (some (results.map .element))) contents =
      Function.update contents destination results := by
  have helements : (results.map Datum.element).filterMap Datum.element? = results := by
    rw [List.filterMap_map]
    exact List.filterMap_some
  change Function.update contents destination
    (((Function.update cells 1 (some (results.map Datum.element)) 1).getD []).filterMap
      Datum.element?) = _
  rw [Function.update_self, Option.getD_some, helements]

variable (element) in
/-- A pass leaves in its destination the folds of what its lanes pick, converted. -/
theorem runPasses_cons {combine : Expression → Expression → Expression} {op : α → α → α}
    (hcombines : Fold.Combines machine combine op)
    (hkernel : ∀ size argument out,
      operation.foldKernel size argument out = Fold.kernel size argument out combine)
    (hfaithful : machine.arithmetic.Faithful) (hfits : Fold.Fits engine.workgroupSize n lanes)
    (hsource : (contents source).length = n) (hdestination : (contents destination).length = lanes)
    (hrounds : n ≤ rounds) (horder : order.Perm (Invocation.all engine.workgroupSize (1, 1)))
    (device : Device) (rest : List ((Dispatch × Kernel) × List Invocation)) :
    Dispatch.runPasses machine rounds device
        ((foldPass engine operation element source destination n lanes, order) :: rest) contents =
      Dispatch.runPasses machine rounds device rest
        (Function.update contents destination
          ((Reduction.passResult op lanes (contents source)).map
            ((outOperand engine element 1 destination).converted machine))) := by
  set pass := Action.foldDispatch engine operation element source destination n lanes with hpass
  set argument : Operand := ⟨some 0, (engine.array source).element.name, ""⟩
  set out := outOperand engine element 1 destination
  set kernel := operation.foldKernel engine.workgroupSize argument out
  have hbound : Fold.Bound (pass.constant overrideWord) (pass.cells device contents) argument out n
      lanes (contents source) ((contents destination).map .element) :=
    ⟨rfl, rfl,
      ⟨0, rfl,
        Dispatch.cells_array (show pass.bindings[0]? = some (.array source, .read) from rfl)⟩,
      ⟨1, rfl, Dispatch.cells_array
        (show pass.bindings[1]? = some (.array destination, .write) from rfl)⟩⟩
  have hconversion : out.conversion ≠ "arrayLength" :=
    OperandPlan.conversion_ne_arrayLength _ _
  have hplain : argument.conversion ≠ "arrayLength" := by
    change "" ≠ "arrayLength"
    decide
  have hapart : argument.slot ≠ out.slot := by
    change (some 0 : Option Int) ≠ some 1
    decide
  have hrun := Fold.runLanes_kernel hfaithful hcombines hplain hconversion hfits hbound rfl hapart
    (Nat.le_of_eq hsource.symm)
    (by rw [List.length_map, hdestination]) hrounds horder
  have hvalues : Fold.values machine argument n (contents source) = contents source := by
    have hconverted : argument.converted machine = id := rfl
    rw [Fold.values, hconverted, List.map_id, List.take_of_length_le (Nat.le_of_eq hsource)]
  have hrest : ((contents destination).map Datum.element).drop lanes = [] := by
    rw [List.drop_eq_nil_iff, List.length_map, hdestination]
  rw [hrest, List.append_nil, Fold.results, hvalues, ← hkernel] at hrun
  have hfirst : Dispatch.runPasses machine rounds device
      ((foldPass engine operation element source destination n lanes, order) :: rest) contents =
        (kernel.runLanes machine rounds (pass.constant overrideWord) order
          (pass.cells device contents)).bind fun cells ↦
            Dispatch.runPasses machine rounds device rest (pass.contentsAfter cells contents) := rfl
  rw [hfirst, hrun]
  refine congrArg (Dispatch.runPasses machine rounds device rest) ?_
  rw [← contentsAfter_foldDispatch (pass.cells device contents), List.map_map]
  rfl

/-! ### All passes -/

/-- The arrays passes write. -/
def foldTargets (passes : List (Dispatch × Kernel)) : List Nat :=
  passes.flatMap fun (pass, _) ↦ pass.arrays (· ≠ .read)

/-- What the passes of a reduction of the array `source` compute, on any exact machine, for any
operation on elements that is associative and commutative there, and in whatever order the lanes of
each workgroup run: they leave in the one-element target the fold of all elements, converted once.
Each pass is a grid of one workgroup. -/
def FoldsAll (engine : Engine) (operation : Operation) (element : ElementType)
    (source target n : Nat) (passes : List (Dispatch × Kernel)) : Prop :=
  (∀ entry ∈ passes, entry.1.source = entry.2.source) ∧
  (0 < engine.maxWorkgroups → ∀ entry ∈ passes,
    gridFor engine.workgroupSize engine.maxWorkgroups entry.1.lanes = (1, 1)) ∧
  ∀ {α : Type} (machine : Machine α) (contents : Nat → List α) (orders : List (List Invocation))
    (rounds : Nat), machine.arithmetic.Faithful →
    Std.Associative (operation.folded machine) → Std.Commutative (operation.folded machine) →
    (contents source).length = n →
    (∀ buffer ∈ foldTargets passes, ∀ count : Nat, (engine.array buffer).length = .ok count →
      (contents buffer).length = count) →
    List.Forall₂ (fun _ order ↦ order.Perm (Invocation.all engine.workgroupSize (1, 1)))
      passes orders →
    n ≤ rounds →
    ∃ folded after,
      Reduction.foldOf (operation.folded machine) (contents source) = some folded ∧
      Dispatch.runPasses machine rounds engine.device (passes.zip orders) contents = some after ∧
      after target = [(outOperand engine element 1 target).converted machine folded]

variable {passes : List (Dispatch × Kernel)}

theorem source_of_chain (hchain : FoldChain engine operation element target source n passes) :
    ∀ entry ∈ passes, entry.1.source = entry.2.source := by
  induction hchain with
  | last =>
    intro entry hmem
    rw [List.mem_singleton.mp hmem]
    rfl
  | step _ _ _ _ _ _ _ ih =>
    intro entry hmem
    rcases List.mem_cons.mp hmem with rfl | hmem
    · rfl
    · exact ih entry hmem

theorem gridFor_of_chain (hwidth : 1 ≤ engine.workgroupSize) (hmax : 0 < engine.maxWorkgroups)
    (hchain : FoldChain engine operation element target source n passes) :
    ∀ entry ∈ passes, gridFor engine.workgroupSize engine.maxWorkgroups entry.1.lanes = (1, 1) := by
  induction hchain with
  | last =>
    intro entry hmem
    rw [List.mem_singleton.mp hmem]
    exact gridFor_eq_one (Int.le_refl 1) hwidth hmax
  | @step _ _ _ lanes _ several _ width _ _ _ _ ih =>
    intro entry hmem
    rcases List.mem_cons.mp hmem with rfl | hmem
    · have hpos : (1 : Int) ≤ lanes := by omega
      exact gridFor_eq_one hpos width hmax
    · exact ih entry hmem

theorem FoldChain.pos (hchain : FoldChain engine operation element target source n passes) :
    1 ≤ n := by
  cases hchain with
  | last pos => exact pos
  | step several le => omega

/-- A single result is the fold of all elements. -/
theorem passResult_one (op : α → α → α) [Std.Associative op] [Std.Commutative op] {xs : List α}
    (hxs : 1 ≤ xs.length) :
    ∃ folded, Reduction.foldOf op xs = some folded ∧ Reduction.passResult op 1 xs = [folded] := by
  obtain ⟨hlength, -⟩ := Reduction.passResult_spec op hxs
  obtain ⟨folded, hresult⟩ := List.length_eq_one_iff.mp hlength
  refine ⟨folded, ?_, hresult⟩
  rw [← Reduction.foldOf_passResult op (Nat.one_pos), hresult]
  rfl

/-- Arrays between passes have the type of the elements, so nothing is converted yet. -/
theorem converted_of_type {destination : Nat} (machine : Machine α)
    (htype : (engine.array destination).element = element) :
    (outOperand engine element 1 destination).converted machine = id := by
  have hconversion : (outOperand engine element 1 destination).conversion = "" := by
    rw [outOperand, htype]
    exact if_pos rfl
  funext a
  exact if_pos hconversion

/-- With as many results as it has elements, a destination still holds what it should. -/
theorem length_update_results {contents : Nat → List α} {results : List α} {destination lanes : Nat}
    {buffers : List Nat} (hlength : (engine.array destination).length = .ok lanes)
    (hresults : results.length = lanes)
    (hfits : ∀ buffer ∈ buffers, ∀ count : Nat, (engine.array buffer).length = .ok count →
      (contents buffer).length = count) :
    ∀ buffer ∈ buffers, ∀ count : Nat, (engine.array buffer).length = .ok count →
      (Function.update contents destination results buffer).length = count := by
  intro buffer hmem count hcount
  by_cases hbuffer : buffer = destination
  · subst hbuffer
    rw [hlength] at hcount
    cases hcount
    rw [Function.update_self, hresults]
  · rw [Function.update_of_ne hbuffer]
    exact hfits buffer hmem count hcount

/-- The passes of a chain fold all elements. -/
theorem foldsAll_of_chain {tag : String} (hfind : Operation.find? tag = some operation)
    (hwords : (n : Int) + engine.workgroupSize ≤ (wordCount : Int))
    (hwidth : 1 ≤ engine.workgroupSize)
    (hchain : FoldChain engine operation element target source n passes) :
    FoldsAll engine operation element source target n passes := by
  refine ⟨source_of_chain hchain, fun hmax ↦ gridFor_of_chain hwidth hmax hchain, ?_⟩
  intro α machine contents orders rounds hfaithful hassociative hcommutative hsource hfits horders
    hrounds
  obtain ⟨combine, hcombines, hkernel⟩ := foldKernel_eq machine hfind
  have hsize : engine.workgroupSize.toNat < wordCount := by
    have hpos := hchain.pos
    omega
  induction hchain generalizing contents orders with
  | @last source n pos apart length =>
    obtain ⟨order, horder, rfl⟩ : ∃ order,
        order.Perm (Invocation.all engine.workgroupSize (1, 1)) ∧ orders = [order] := by
      cases horders with
      | cons horder hrest =>
        cases hrest
        exact ⟨_, horder, rfl⟩
    have htarget : (contents target).length = 1 := hfits target List.mem_cons_self 1 length
    have hsome : 1 ≤ (contents source).length := by omega
    obtain ⟨folded, hfold, hresult⟩ := passResult_one (operation.folded machine) hsome
    have hrun := runPasses_cons element hcombines hkernel hfaithful
      ⟨Nat.one_pos, pos, by omega, hsize, by omega⟩ hsource htarget hrounds horder engine.device []
    refine ⟨folded, _, hfold, hrun, ?_⟩
    rw [hresult, Function.update_self]
    rfl
  | @step source destination n lanes rest several le width apart length type chain ih =>
    obtain ⟨order, later, horder, hlater, rfl⟩ : ∃ order later,
        order.Perm (Invocation.all engine.workgroupSize (1, 1)) ∧
        List.Forall₂ (fun _ order ↦ order.Perm (Invocation.all engine.workgroupSize (1, 1))) rest
          later ∧ orders = order :: later := by
      cases horders with
      | cons horder hrest => exact ⟨_, _, horder, hrest, rfl⟩
    have hdestination : (contents destination).length = lanes :=
      hfits destination List.mem_cons_self lanes length
    have hrun := runPasses_cons element hcombines hkernel hfaithful
      ⟨Nat.lt_of_succ_lt several, le, by omega, hsize, by omega⟩ hsource hdestination hrounds horder
      engine.device (rest.zip later)
    rw [converted_of_type machine type, List.map_id] at hrun
    set partials := Reduction.passResult (operation.folded machine) lanes (contents source)
      with hpartials
    have hcount : partials.length = lanes :=
      (Reduction.passResult_spec _ (hsource ▸ le)).1
    have hfits' := length_update_results length hcount fun buffer hmem ↦
      hfits buffer (List.mem_append_right _ hmem)
    obtain ⟨folded, after, hfold, hafter, htarget⟩ := ih (by omega)
      (Function.update contents destination partials) later
      (by rw [Function.update_self, hcount]) hfits' hlater (by omega)
    refine ⟨folded, after, ?_, hrun.trans hafter, htarget⟩
    rw [← hfold, Function.update_self, Reduction.foldOf_passResult _ (Nat.lt_of_succ_lt several)]

/-! ### Calls -/

/-- How an operation comes to the array it writes, and to the state it is written in: a fresh array
for no output, a given output that is no input, and a fresh array of the type and the shape of a
given output that is also an input. -/
inductive Outputs (engine : Engine) (shape : List Int) (element : ElementType)
    (inputs : List Nat) : Value → Nat → Option Nat → Engine → Prop where
  | fresh {target : Nat}
      (made : outcomeOf (Action.newContiguous element shape) engine = .ok target) :
      Outputs engine shape element inputs .none target none
        (stateAfter (Action.newContiguous element shape) engine)
  | direct {buffer : Nat} {described : String}
      (plain : (engine.array buffer).customStrides = false)
      (shaped : (engine.array buffer).shapeInts = shape) (apart : buffer ∉ inputs) :
      Outputs engine shape element inputs (.array buffer described) buffer none engine
  | shared {buffer target : Nat} {described : String}
      (plain : (engine.array buffer).customStrides = false)
      (shaped : (engine.array buffer).shapeInts = shape) (shared : buffer ∈ inputs)
      (made : outcomeOf (Action.newContiguous (engine.array buffer).element shape) engine =
        .ok target) :
      Outputs engine shape element inputs (.array buffer described) target (some buffer)
        (stateAfter (Action.newContiguous (engine.array buffer).element shape) engine)

theorem outputs_of_output {out : Value} {shape : List Int} {inputs : List Nat} {given : Option Nat}
    (h : outcomeOf (Action.output out shape element inputs) engine = .ok (target, given)) :
    Outputs engine shape element inputs out target given
      (stateAfter (Action.output out shape element inputs) engine) := by
  unfold Action.output at h ⊢
  split at h
  · rw [outcomeOf_bind_eq_ok] at h
    obtain ⟨buffer, hbuffer, h⟩ := h
    cases h
    rw [stateAfter_bind_of_ok hbuffer]
    exact .fresh hbuffer
  · next buffer described =>
    rw [outcomeOf_bind_eq_ok] at h
    obtain ⟨array, harray, h⟩ := h
    cases harray
    rw [stateAfter_bind_of_ok (outcomeOf_array buffer engine)]
    rw [stateAfter_array] at h ⊢
    dsimp only at h ⊢
    by_cases hstrides : (engine.array buffer).customStrides = true
    · rw [if_pos hstrides] at h
      cases h
    by_cases hshape : (engine.array buffer).shapeInts ≠ shape
    · rw [if_neg hstrides, if_pos hshape] at h
      cases h
    rw [if_neg hstrides, if_neg hshape] at h ⊢
    rw [Bool.not_eq_true] at hstrides
    rw [not_not] at hshape
    by_cases hinput : inputs.contains buffer = true
    · rw [if_pos hinput] at h ⊢
      rw [outcomeOf_bind_eq_ok] at h
      obtain ⟨fresh, hbuffer, h⟩ := h
      cases h
      rw [stateAfter_bind_of_ok hbuffer]
      exact .shared hstrides hshape (List.contains_iff_mem.mp hinput) hbuffer
    · rw [if_neg hinput] at h ⊢
      cases h
      exact .direct hstrides hshape fun hmem ↦ hinput (List.contains_iff_mem.mpr hmem)
  · cases h

/-- The array a kernel writes is one of the engine's, and no input. -/
theorem output_eq_ok {out : Value} {shape : List Int} {inputs : List Nat} {given : Option Nat}
    (hnumbered : engine.Numbered)
    (hinputs : ∀ input ∈ inputs, ∃ array, engine.arrays.lookup input = some array)
    (hout : ∀ buffer described, out = .array buffer described →
      ∃ array, engine.arrays.lookup buffer = some array)
    (h : outcomeOf (Action.output out shape element inputs) engine = .ok (target, given)) :
    (stateAfter (Action.output out shape element inputs) engine).Numbered ∧
      Engine.Keeps engine (stateAfter (Action.output out shape element inputs) engine) ∧
      (∃ array, (stateAfter (Action.output out shape element inputs) engine).arrays.lookup target =
        some array) ∧ target ∉ inputs := by
  have hfresh {kind : ElementType} {buffer : Nat}
      (h : outcomeOf (Action.newContiguous kind shape) engine = .ok buffer) :
      (stateAfter (Action.newContiguous kind shape) engine).Numbered ∧
        Engine.Keeps engine (stateAfter (Action.newContiguous kind shape) engine) ∧
        (∃ array, (stateAfter (Action.newContiguous kind shape) engine).arrays.lookup buffer =
          some array) ∧ buffer ∉ inputs := by
    obtain ⟨array, -, rfl, hnumbered', hkeeps, hlookup⟩ := newArray_fresh hnumbered h
    refine ⟨hnumbered', hkeeps, ⟨array, hlookup⟩, fun hmem ↦ ?_⟩
    obtain ⟨array, hlookup⟩ := hinputs _ hmem
    exact Nat.lt_irrefl _ (hnumbered _ _ hlookup)
  have houtputs := outputs_of_output h
  generalize stateAfter (Action.output out shape element inputs) engine = after at houtputs ⊢
  cases houtputs with
  | fresh made => exact hfresh made
  | direct plain shaped apart => exact ⟨hnumbered, Std.Refl.refl _, hout _ _ rfl, apart⟩
  | shared plain shaped shared made => exact hfresh made

end ComputeArray
