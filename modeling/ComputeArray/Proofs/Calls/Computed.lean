import ComputeArray.Proofs.Aliasing.Calls
import ComputeArray.Proofs.Layout.CommonShape

/-!
# What calls compute

What a pass computes is known from the way it was planned. Here it is said of the passes that a call
has submitted, in the state it has left: the pass of an operation reads each array at the source of
the index of the lane (`computesAtSources_of_call`), and the passes of a reduction fold all elements
(`foldsAll_of_call`). What the last of them writes is the array the call answers, or is copied into
it (`EngineCall.Completes`).
-/

set_option autoImplicit false

namespace ComputeArray

open Engine

variable {engine : Engine} {call : EngineCall} {operation : Operation} {operands : List Value}
  {targets : List ElementType} {result : ElementType} {out : Value} {shape : List Nat}
  {target buffer : Nat} {given : Option Nat} {pass : Dispatch} {helpers loose : List Nat}

/-! ### Operations on elements -/

/-- Arrays that have a common shape all stretch to it, and it is a positive shape. -/
theorem stretches_of_launch
    (hlaid : ∀ buffer ∈ Value.arrays operands, (engine.array buffer).WellLaid)
    (hshape : Shape.broadcast
      (((Value.arrays operands).map engine.array).map ArrayState.shapeInts) =
        .ok (shape.map Int.ofNat)) :
    (∀ buffer ∈ Value.arrays operands, Shape.Stretches (engine.array buffer).shape shape) ∧
      shape ≠ [] ∧ ∀ extent ∈ shape, 0 < extent := by
  set shapes := (Value.arrays operands).map fun buffer ↦ (engine.array buffer).shape with hshapes
  have hbroadcast : Shape.broadcast (shapes.map (·.map Int.ofNat)) = .ok (shape.map Int.ofNat) := by
    rw [← hshape, hshapes, List.map_map, List.map_map]
    rfl
  have hstretches : ∀ buffer ∈ Value.arrays operands,
      Shape.Stretches (engine.array buffer).shape shape :=
    fun buffer hmem ↦ Shape.stretches_of_broadcast hbroadcast (List.mem_map.mpr ⟨buffer, hmem, rfl⟩)
  refine ⟨hstretches, ?_, ?_⟩
  · rintro rfl
    cases hbuffers : Value.arrays operands with
    | nil =>
      rw [hbuffers] at hshape
      cases hshape
    | cons buffer rest =>
      have hmem : buffer ∈ Value.arrays operands := by rw [hbuffers]; exact List.mem_cons_self
      have hle := (hstretches buffer hmem).length_le
      exact (hlaid buffer hmem).nonempty (List.length_eq_zero_iff.mp (Nat.le_zero.mp hle))
  · obtain ⟨common, hcommon, hpos⟩ := Shape.exists_common_of_broadcast hbroadcast (by
      intro found hmem
      obtain ⟨buffer, hbuffer, rfl⟩ := List.mem_map.mp hmem
      exact (hlaid buffer hbuffer).positive)
    have hsame : shape = common :=
      List.map_injective_iff.mpr (fun _ _ ↦ Int.ofNat_inj.mp) hcommon
    rw [hsame]
    exact hpos

namespace EngineCall

/-- The arrays among the operands of a call are laid out well and broadcast to a shape. Their
elements, those of the shape, its axes and the lanes of a workgroup are numbered by words. -/
structure Spans (call : EngineCall) (engine : Engine) (shape : List Nat) : Prop where
  laid : ∀ input ∈ call.inputs, (engine.array input).WellLaid
  counts : ∀ input ∈ call.inputs, (engine.array input).count ≤ (Kernel.wordCount : Int)
  shaped : Shape.broadcast ((call.inputs.map engine.array).map ArrayState.shapeInts) =
    .ok (shape.map Int.ofNat)
  volume : Shape.volume shape < Kernel.wordCount
  rank : shape.length < Kernel.wordCount
  lanes : 0 < engine.workgroupSize
  width : engine.workgroupSize.toNat < Kernel.wordCount

theorem Launches.isElementwise
    (h : call.Launches engine operation operands targets result out) : operation.IsElementwise := by
  cases h with
  | elementwise found noFold count typed => exact .inl ⟨noFold, _, found⟩
  | choose typed => exact .inr rfl

/-- The operands of a call have the same common shape in the order they are launched in. -/
theorem Spans.broadcast_eq (hspans : call.Spans engine shape)
    (hsame : ∀ buffer, buffer ∈ Value.arrays operands ↔ buffer ∈ call.inputs) :
    Shape.broadcast (((Value.arrays operands).map engine.array).map ArrayState.shapeInts) =
      .ok (shape.map Int.ofNat) :=
  Shape.broadcast_eq_ok_of_mem_iff (fun _ ↦ by simp only [List.mem_map, hsame]) hspans.shaped

/-- The operands of a launch broadcast, in every state that keeps their arrays. -/
theorem Spans.broadcasts {first : Engine} (hspans : call.Spans engine shape)
    (hlaunches : call.Launches engine operation operands targets result out)
    (hkeeps : Keeps engine first)
    (hfound : ∀ input ∈ call.inputs, ∃ array, engine.arrays.lookup input = some array) :
    Broadcasts first operation operands targets shape := by
  obtain ⟨hcount, htypes⟩ := hlaunches.counts
  obtain ⟨-, hinputs⟩ := hlaunches.inputs
  have hsame (input : Nat) (hmem : input ∈ Value.arrays operands) :
      first.array input = engine.array input :=
    hkeeps.array_eq (hfound input ((hinputs input).mp hmem))
  obtain ⟨hstretches, hnonempty, hpositive⟩ := stretches_of_launch
    (fun input hmem ↦ hspans.laid input ((hinputs input).mp hmem)) (hspans.broadcast_eq hinputs)
  refine ⟨hlaunches.isElementwise, hcount, htypes, fun input hmem ↦ ?_, fun input hmem ↦ ?_,
    fun input hmem ↦ ?_, hnonempty, hpositive, hspans.volume, hspans.rank, ?_, ?_⟩
  · rw [hsame input hmem]
    exact hspans.laid input ((hinputs input).mp hmem)
  · rw [hsame input hmem]
    exact hstretches input hmem
  · rw [hsame input hmem]
    exact hspans.counts input ((hinputs input).mp hmem)
  · rw [hkeeps.width]
    exact hspans.lanes
  · rw [hkeeps.width]
    exact hspans.width

end EngineCall

theorem sameFixture_stridesBuffer (strides : List Int) :
    Moves SameFixture (Action.stridesBuffer strides) :=
  .bind (.ofExcept _) fun _ ↦ .bind .assertActive fun _ ↦ fun _ ↦ rfl

/-- Buffers that are newer than the operands and the target of a pass have no part in its submission
but as its stride buffers. -/
theorem unused_of_binds {next helper : Nat}
    (hbinds : pass.Binds (Value.arrays operands) target helpers)
    (hinputs : ∀ input ∈ Value.arrays operands, input < next) (htarget : target < next)
    (hgiven : ∀ out, given = some out → out ∈ Value.arrays operands) (hnew : next ≤ helper) :
    helper ∉ readBy [pass] ∧
      helper ∉ writtenBy [pass] (given.toList.map fun out ↦ (target, out)) := by
  have hunread : helper ∉ Value.arrays operands := fun hmem ↦
    Nat.not_le_of_lt (hinputs helper hmem) hnew
  obtain ⟨hreads, hwrites⟩ := hbinds.arrays
  rw [readBy, writtenBy, List.flatMap_singleton, List.flatMap_singleton, hreads, hwrites]
  refine ⟨hunread, fun hmem ↦ ?_⟩
  rcases List.mem_append.mp hmem with hmem | hmem
  · exact Nat.not_le_of_lt htarget (List.mem_singleton.mp hmem ▸ hnew)
  · obtain ⟨_, hcopy, rfl⟩ := List.mem_map.mp hmem
    obtain ⟨out, hout, rfl⟩ := List.mem_map.mp hcopy
    exact hunread (hgiven out (Option.mem_toList.mp hout))

/-- When a launch has been carried out, its operands have kept their layouts, and its pass computes
the operation at their sources. -/
theorem computesAtSources_of_carryOut {first planned : Engine} {strided : Bool}
    (hcustody : engine.Custody loose)
    (hadmits : ∀ buffer ∈ Value.arrays call.values,
      ∃ array, engine.arrays.lookup buffer = some array)
    (hspans : call.Spans engine shape)
    (hlaunches : call.Launches engine operation operands targets result call.out)
    (hstrided : strided =
      Launch.isStrided ((Value.arrays operands).map engine.array) (shape.map Int.ofNat))
    (houtput : outcomeOf (Action.output call.out (shape.map Int.ofNat) result
      (Value.arrays operands)) engine = .ok (target, given))
    (hfirst : first = stateAfter (Action.output call.out (shape.map Int.ofNat) result
      (Value.arrays operands)) engine)
    (hmade : outcomeOf (Action.elementwisePass operation operands targets result
      (shape.map Int.ofNat) strided target) first = .ok (pass, helpers))
    (hplanned : planned = stateAfter (Action.elementwisePass operation operands targets result
      (shape.map Int.ofNat) strided target) first)
    (hfitting : planned.Fitting) (hfaithful : planned.FaithfulCaches)
    (hcarried : outcomeOf (CallPlan.carryOut ⟨[pass], helpers, [], target, given⟩) planned =
      .ok buffer) :
    let after := stateAfter (CallPlan.carryOut ⟨[pass], helpers, [], target, given⟩) planned
    (∀ input ∈ call.inputs, (after.array input).layout = (engine.array input).layout) ∧
      ComputesAtSources after operation operands targets result shape strided target after.device
        pass := by
  intro after
  obtain ⟨hcount, htypes⟩ := hlaunches.counts
  obtain ⟨-, hinputs⟩ := hlaunches.inputs
  have hfound (input : Nat) (hmem : input ∈ call.inputs) :
      ∃ array, engine.arrays.lookup input = some array :=
    hadmits input (EngineCall.mem_arrays_of_inputs hmem)
  obtain ⟨henlarges, hcustody', htarget, -, hresolves⟩ := resolves_of_output hcustody
    (fun input hmem ↦ hfound input ((hinputs input).mp hmem))
    (fun buffer described hout ↦ hadmits buffer (EngineCall.mem_arrays_of_out hout)) houtput
  rw [← hfirst] at henlarges hcustody' htarget hresolves
  have hkeeps : Keeps engine first := by
    rw [hfirst]
    exact Moves.output (.newArray keeps_allocate) _ _ _ _ engine
  have harrays : (Value.arrays operands).map engine.array =
      (Value.arrays operands).map first.array :=
    List.map_congr_left fun input hmem ↦
      (hkeeps.array_eq (hfound input ((hinputs input).mp hmem))).symm
  have hcomputes : ComputesAtSources first operation operands targets result shape strided target
      planned.device pass := by
    rw [hplanned]
    exact computesAtSources_of_elementwisePass (hspans.broadcasts hlaunches hkeeps hfound)
      (harrays ▸ hstrided) hmade
  have hsame : SameFixture first after := by
    refine trans_of SameFixture ?_ (CallPlan.sameFixture_carryOut _ planned)
    rw [hplanned]
    exact Moves.elementwisePass sameFixture_stridesBuffer _ _ _ _ _ _ _ first
  refine ⟨fun input hmem ↦ ?_, hcomputes.later hsame fun helper mode hmem ↦ ?_⟩
  · rw [hsame.layout, hkeeps.array_eq (hfound input hmem)]
  · -- a buffer without a host copy that the pass binds is one of its stride buffers
    have hbinds := binds_of_elementwisePass hcount htypes hmade
    obtain ⟨_, -, heq⟩ | heq | ⟨_, hhelper, heq⟩ := hbinds.mem_cases hmem <;> cases heq
    have hlow (input : Nat) (hinput : input ∈ Value.arrays operands) :
        input < first.nextBuffer := by
      obtain ⟨array, hlookup⟩ := hfound input ((hinputs input).mp hinput)
      exact Nat.lt_of_lt_of_le (hcustody.numbered_arrays _ _ hlookup) henlarges.le
    have hgiven (out : Nat) (hout : given = some out) : out ∈ Value.arrays operands := by
      rw [hout] at hresolves
      exact hresolves.of_given.1
    obtain ⟨hunread, hunwritten⟩ := unused_of_binds hbinds hlow htarget hgiven
      (le_of_mem_helpers hcustody' hmade hhelper)
    exact CallPlan.bytesOf_carryOut hfitting hfaithful (by simpa using hbinds.readsPlain) hunread
      hunwritten hcarried

/-- In each lane, the pass that an operation on elements has submitted reads the arrays at the
sources of the index of the lane, and stores what the operation makes of the elements there. -/
theorem computesAtSources_of_action (hfitting : engine.Fitting)
    (hfaithful : engine.FaithfulCaches) (hcustody : engine.Custody loose)
    (hadmits : Value.arrays call.values ⊆ engine.arrays.map Prod.fst)
    (hkind : ∀ tag argument out, call ≠ .reduce tag argument out)
    (hspans : call.Spans engine shape) (h : outcomeOf call.action engine = .ok buffer) :
    let after := stateAfter call.action engine
    ∃ operation operands targets result target pass command moves,
      call.Launches engine operation operands targets result call.out ∧
      call.Completes engine after buffer [pass] [command] moves ∧
      pass.WritesOnly target ∧
      (∀ input ∈ call.inputs, (after.array input).layout = (engine.array input).layout) ∧
      ComputesAtSources after operation operands targets result shape
        (Launch.isStrided ((Value.arrays operands).map engine.array) (shape.map Int.ofNat)) target
        after.device pass := by
  intro after
  obtain ⟨plan, hplan, hcarried, hafter⟩ := EngineCall.action_eq_ok h
  have hadmits' (buffer : Nat) (hmem : buffer ∈ Value.arrays call.values) :
      ∃ array, engine.arrays.lookup buffer = some array :=
    exists_lookup_of_mem (hadmits hmem)
  obtain ⟨passes, moves, hcompletes⟩ :=
    completes_of_plan hfitting hfaithful hcustody hadmits hplan hcarried
  obtain ⟨last, hlast, hwrites⟩ := (apart_of_plan hcustody hadmits' hplan).binds.last
  obtain ⟨hfitting', hfaithful'⟩ := sound_of_plan hfitting hfaithful call
  have hsettles := EngineCall.settles_of_plan hplan
  rw [← hafter] at hcompletes
  generalize hplanned : stateAfter call.plan engine = planned at *
  cases hsettles with
  | fold => exact absurd rfl (hkind _ _ _)
  | @launch _ operation operands targets result out shape' target given pass helpers launches shaped
      output made =>
    obtain ⟨rfl, hinputs⟩ := launches.inputs
    obtain rfl := Except.ok.inj (shaped.symm.trans (hspans.broadcast_eq hinputs))
    obtain ⟨command, rest, hencodes, hnil, rfl⟩ := List.forall₂_cons_left_iff.mp hcompletes.encodes
    obtain rfl := List.forall₂_nil_left_iff.mp hnil
    cases hlast
    obtain ⟨hlayouts, hcomputes⟩ := computesAtSources_of_carryOut hcustody hadmits' hspans launches
      rfl output rfl made rfl hfitting' hfaithful' hcarried
    rw [← hafter] at hlayouts hcomputes
    exact ⟨operation, operands, targets, result, target, pass, command, moves, launches, hcompletes,
      hwrites, hlayouts, hcomputes⟩

/-- A column of two elements, a row of three that lie two apart, and room for their sums. -/
def crossed : List Happening :=
  [.step (.make (.layout (.list [.value (.int 2), .value (.int 1)]) (.value (.text "f32"))
      (.value .none)) (some "column")),
    .step (.make (.layout (.list [.value (.int 3)]) (.value (.text "f32"))
      (.list [.value (.int 2)])) (some "row")),
    .step (.make (.layout (.list [.value (.int 2), .value (.int 3)]) (.value (.text "f32"))
      (.value .none)) (some "sums"))]

/-- The sum of the column and the row. -/
def crossSum : EngineCall := .elementwise "add" [.array 1 "", .array 2 ""] (.array 3 "")

/-- The passes that a reduction has submitted are those planned for its argument. Each
reads what the one before it has written, and together they fold all elements. -/
theorem foldsAll_of_action {tag described : String} {source n : Nat} (hfitting : engine.Fitting)
    (hfaithful : engine.FaithfulCaches) (hcustody : engine.Custody loose)
    (hadmits : Value.arrays (EngineCall.reduce tag (.array source described) out).values ⊆
      engine.arrays.map Prod.fst)
    (hlength : (engine.array source).length = .ok n) (hn : 1 ≤ n)
    (hwidth : 1 ≤ engine.workgroupSize)
    (hwords : (n : Int) + engine.workgroupSize ≤ (Kernel.wordCount : Int))
    (h : outcomeOf (EngineCall.reduce tag (.array source described) out).action engine =
      .ok buffer) :
    let call := EngineCall.reduce tag (.array source described) out
    let after := stateAfter call.action engine
    ∃ operation target passes commands moves,
      Operation.find? tag = some operation ∧
      call.Completes engine after buffer (passes.map Prod.fst) commands moves ∧
      (∃ last, (passes.map Prod.fst).getLast? = some last ∧ last.WritesOnly target) ∧
      List.Forall₂ FollowsPlan (Reduction.passes engine.workgroupSize n) passes ∧
      passes.length ≤ Nat.log 2 n + 1 ∧
      FoldChain after operation (engine.array source).element target source n passes ∧
      FoldsAll after operation (engine.array source).element source target n passes := by
  intro call after
  obtain ⟨plan, hplan, hcarried, hafter⟩ := EngineCall.action_eq_ok h
  have hadmits' (buffer : Nat) (hmem : buffer ∈ Value.arrays call.values) :
      ∃ array, engine.arrays.lookup buffer = some array :=
    exists_lookup_of_mem (hadmits hmem)
  obtain ⟨commands, moves, hcompletes⟩ :=
    completes_of_plan hfitting hfaithful hcustody hadmits hplan hcarried
  have hlast := (apart_of_plan hcustody hadmits' hplan).binds.last
  have hsame := CallPlan.sameFixture_carryOut plan (stateAfter call.plan engine)
  have hsettles := EngineCall.settles_of_plan hplan
  rw [← hafter] at hcompletes hsame
  generalize stateAfter call.plan engine = planned at *
  cases hsettles with
  | launch launches => cases launches
  | @fold _ _ _ _ operation shape n' target given dispatches between found isFold length output
      single made =>
    obtain rfl := Except.ok.inj (length.symm.trans hlength)
    have hsource : ∃ array, engine.arrays.lookup source = some array :=
      hadmits' source (mem_arrays List.mem_cons_self)
    obtain ⟨hnumbered, hkeeps, ⟨array, htarget⟩, hapart⟩ := output_eq_ok
      hcustody.numbered_arrays (fun input hmem ↦ List.mem_singleton.mp hmem ▸ hsource)
      (fun buffer described hout ↦ hadmits' buffer (EngineCall.mem_arrays_of_out hout)) output
    have hsingle : array.length = .ok 1 :=
      (congrArg ArrayState.length (array_of_lookup htarget)).symm.trans single
    rw [← hkeeps.width] at hwidth hwords
    have hsmall : n < 2 ^ 63 := by
      unfold Kernel.wordCount at hwords
      omega
    obtain ⟨passes, rfl, hfollows, hkeeps', hchain⟩ := chained_of_foldDispatches hnumbered hwidth hn
      hsmall (hkeeps.exists_lookup hsource) htarget hsingle
      (fun heq ↦ hapart (List.mem_singleton.mpr heq.symm)) made
    have hwidth' := hsame.workgroupSize.trans hkeeps'.width
    rw [← hwidth'] at hwidth hwords
    refine ⟨operation, target, passes, commands, moves, found, hcompletes, hlast, ?_, ?_,
      hchain.later hsame, foldsAll_of_chain found hwords hwidth (hchain.later hsame)⟩
    · rw [← hkeeps.width]
      exact hfollows
    · rw [← hfollows.length_eq]
      exact Reduction.length_passes_le _ n

/-- A row of five floats and a single integer. -/
def rowAndCell : List Happening :=
  [.step (.make (.layout (.list [.value (.int 5)]) (.value (.text "f32")) (.value .none))
      (some "row")),
    .step (.make (.layout (.list [.value (.int 1)]) (.value (.text "i32")) (.value .none))
      (some "cell"))]

/-- The sum of the row, stored in the cell. -/
def rowSum : EngineCall := .reduce "sum" (.array 1 "") (.array 2 "")

end ComputeArray
