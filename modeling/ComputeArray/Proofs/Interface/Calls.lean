import ComputeArray.Proofs.Calls.Plan
import ComputeArray.Proofs.Interface.Launch
import ComputeArray.Proofs.Interface.Passes
import ComputeArray.Proofs.Random.Construction
import ComputeArray.Proofs.Reduction.Run
import ComputeArray.Proofs.Run.Reachable

/-!
# Interfaces of calls

Whatever a call submits, the kernels declare what is bound to them (`interfaces_of_call`): the one
pass of an elementwise operation or of a choice, the passes of a reduction, and the passes of a
generator. `Submitting` says so of the way from one state to another: no matter what else happens on
it, each submission has a property in the state it starts from.
-/

set_option autoImplicit false

namespace ComputeArray

open Engine

/-! ### Submissions on the way -/

/-- The primitive hands no passes over. -/
def Primitive.IsQuiet : Primitive → Prop
  | submit .. => False
  | primitive => primitive.Proper

/-- Primitives lead from one state to the other, and each submission among them has the property in
the state it starts from. -/
inductive Submitting (shows : Engine → List Dispatch → Prop) : Engine → Engine → Prop where
  | refl (engine : Engine) : Submitting shows engine engine
  | quiet {first last : Engine} {primitive : Primitive} (quiet : primitive.IsQuiet)
      (rest : Submitting shows (first.after primitive) last) : Submitting shows first last
  | submit {first last : Engine} {dispatches : List Dispatch} {helpers : List Nat}
      {copies : List (Nat × Nat)} (shown : shows first dispatches)
      (rest : Submitting shows (first.after (.submit dispatches helpers copies)) last) :
      Submitting shows first last

variable {shows : Engine → List Dispatch → Prop} {α : Type} {engine : Engine}

theorem Submitting.trans {first middle last : Engine} (hfirst : Submitting shows first middle)
    (hlast : Submitting shows middle last) : Submitting shows first last := by
  induction hfirst with
  | refl engine => exact hlast
  | quiet quiet _ ih => exact .quiet quiet (ih hlast)
  | submit shown _ ih => exact .submit shown (ih hlast)

/-- From a reachable state the submissions have the property. -/
def Presenting (shows : Engine → List Dispatch → Prop) (first last : Engine) : Prop :=
  first.Reachable → last.Reachable ∧ Submitting shows first last

instance : Std.Refl (Presenting shows) := ⟨fun engine h ↦ ⟨h, .refl engine⟩⟩

instance : IsTrans Engine (Presenting shows) := ⟨fun _ _ _ hfirst hlast hreachable ↦ by
  obtain ⟨hmiddle, h⟩ := hfirst hreachable
  obtain ⟨hafter, h'⟩ := hlast hmiddle
  exact ⟨hafter, h.trans h'⟩⟩

namespace Presenting

/-- An action that leaves the same state as a quiet primitive. -/
theorem single {m : Action α} (primitive : Primitive) (hquiet : primitive.IsQuiet)
    (h : ∀ engine, stateAfter m engine = engine.after primitive) : Moves (Presenting shows) m := by
  intro engine hreachable
  rw [h]
  exact ⟨hreachable.afterAll [primitive], .quiet hquiet (.refl _)⟩

theorem allocate (element : ElementType) (shape strides : List Nat) (customStrides : Bool)
    (count : Int) :
    Moves (Presenting shows) (Action.allocate element shape strides customStrides count) :=
  single (.allocate element shape strides customStrides count) trivial fun engine ↦
    (after_allocate engine _ _ _ _ _).symm

theorem stridesBuffer (strides : List Int) :
    Moves (Presenting shows) (Action.stridesBuffer strides) :=
  single (.stridesBuffer strides) trivial fun engine ↦ (after_stridesBuffer engine strides).symm

theorem release (buffer : Nat) : Moves (Presenting shows) (modify (Engine.release buffer)) :=
  single (.release buffer) trivial fun _ ↦ rfl

theorem setValue (buffer : Nat) (value : Value) (index : List Value) :
    Moves (Presenting shows) (Action.setValue buffer value index) :=
  single (.setValue buffer value index) trivial fun _ ↦ rfl

theorem setElements (buffer : Nat) (values : List Nat) :
    Moves (Presenting shows) (Action.setElements buffer values) :=
  single (.setElements buffer values) trivial fun _ ↦ rfl

theorem setGenerator (state : Nat) (generator : Generator) :
    Moves (Presenting shows) (modify (Engine.setGenerator state generator)) :=
  single (.setGenerator state generator) trivial fun _ ↦ rfl

theorem addGenerator (state : Nat) (generator : Generator) :
    Moves (Presenting shows) (modify (Engine.addGenerator state generator)) :=
  single (.addGenerator state generator) trivial fun _ ↦ rfl

/-- A submission with the property. -/
theorem submit {dispatches : List Dispatch} (helpers : List Nat) (copies : List (Nat × Nat))
    (hshown : shows engine dispatches) :
    Presenting shows engine (stateAfter (Action.submit dispatches helpers copies) engine) := by
  intro hreachable
  rw [← Engine.after_submit]
  exact ⟨hreachable.afterAll [.submit dispatches helpers copies],
    .submit hshown (.refl _)⟩

/-- A plan is carried out in one submission. -/
theorem carryOut {plan : CallPlan} (hshown : shows engine plan.dispatches) :
    Presenting shows engine (stateAfter plan.carryOut engine) :=
  Moves.bindAt (submit plan.helpers plan.copies hshown) fun _ _ ↦
    Moves.bind (.releaseAll release _) (fun _ ↦ .settleOutput release _ _) _

end Presenting

/-! ### Calls -/

/-- The calls that submit passes. -/
inductive KernelCall where
  | arrays (call : EngineCall)
  /-- A new generator. -/
  | generator (size seed entropy : Value)
  | uniform (state : Nat) (elementName : Value)
  | normal (state : Nat) (elementName : Value)
  | skip (state : Nat)

/-- The values a call on arrays is given. -/
def EngineCall.values : EngineCall → List Value
  | elementwise _ operands out => out :: operands
  | choose condition yes no out => [condition, yes, no, out]
  | reduce _ argument out => [argument, out]

namespace KernelCall

def action : KernelCall → Action Unit
  | arrays call => do let _ ← call.action
  | generator size seed entropy => do let _ ← Action.newGenerator size seed entropy
  | uniform state elementName => do let _ ← Action.drawUniform state elementName
  | normal state elementName => do let _ ← Action.drawNormal state elementName
  | skip state => Action.skipDraw state

/-- The arrays a call is given are all there. -/
def Admits (engine : Engine) : KernelCall → Prop
  | arrays call =>
    ∀ buffer ∈ Value.arrays call.values, ∃ array, engine.arrays.lookup buffer = some array
  | _ => True

/-- What the passes of a submission show of themselves, in the state `current` it starts from, if it
is made by a call in the state `start`. -/
inductive Submits (start : Engine) : KernelCall → Engine → List Dispatch → Prop where
  | launch {call : EngineCall} {operation : Operation} {operands : List Value}
      {targets : List ElementType} {result : ElementType} {out : Value} {shape : List Int}
      {target : Nat} {given : Option Nat} {current : Engine} {pass : Dispatch} {kernel : Kernel}
      {helpers : List (String × Nat)}
      (launches : call.Launches start operation operands targets result out)
      (shaped : Shape.broadcast (((Value.arrays operands).map start.array).map
        ArrayState.shapeInts) = .ok shape)
      (output : outcomeOf (Action.output out shape result (Value.arrays operands)) start =
        .ok (target, given))
      (launched : LaunchedPass current.array current.device operation operands targets result shape
        (Launch.isStrided ((Value.arrays operands).map start.array) shape) target pass kernel
          helpers) :
      Submits start (.arrays call) current [pass]
  | fold {tag : String} {source : Nat} {described : String} {out : Value} {operation : Operation}
      {shape : List Int} {target : Nat} {given : Option Nat} {current : Engine}
      {dispatches : List Dispatch}
      (found : Operation.find? tag = some operation) (isFold : operation.template.isFold = true)
      (output : outcomeOf (Action.output out shape (start.array source).element [source]) start =
        .ok (target, given))
      (folded : FoldedPasses current.array operation (start.array source).element target source
        dispatches) :
      Submits start (.arrays (.reduce tag (.array source described) out)) current dispatches
  | derive {size seed entropy : Value} {rows : Int} {state cursor count : Nat} {current : Engine}
      {pass : Dispatch} {kernel : Kernel}
      (streams : outcomeOf (Action.newContiguous .u32 [rows, 4]) start = .ok state)
      (presents : pass.Presents kernel
        [.ofStreams state, .ofArray current.array "cursor" cursor .readWrite]) :
      Submits start (.generator size seed entropy) current (List.replicate count pass)
  | uniform {state out : Nat} {elementName : Value} {current : Engine} {pass : Dispatch}
      {kernel : Kernel}
      (typed : ElementType.ofValue elementName = .ok (current.array out).element)
      (drawn : DrawnPass current.array state [("out", out)] pass kernel) :
      Submits start (.uniform state elementName) current [pass]
  | normal {state first second : Nat} {elementName : Value} {current : Engine} {pass : Dispatch}
      {kernel : Kernel}
      (typed : ElementType.ofValue elementName = .ok (current.array first).element)
      (alike : (current.array second).element = (current.array first).element)
      (drawn : DrawnPass current.array state [("out0", first), ("out1", second)] pass kernel) :
      Submits start (.normal state elementName) current [pass]
  | skip {state : Nat} {current : Engine} {pass : Dispatch} {kernel : Kernel}
      (drawn : DrawnPass current.array state [] pass kernel) :
      Submits start (.skip state) current [pass]

end KernelCall

/-! ### Calls on arrays -/

variable {call : EngineCall} {operation : Operation} {operands : List Value}
  {targets : List ElementType} {result : ElementType} {out : Value}

theorem Engine.Reachable.numbered (h : engine.Reachable) : engine.Numbered :=
  fun buffer array hlookup ↦ Nat.lt_succ_of_le (h.fitting buffer array hlookup).le

namespace EngineCall.Launches

/-- A launched operation has as many operands as its kernel, and a type for each. -/
theorem counts (h : call.Launches engine operation operands targets result out) :
    operands.length = operation.template.operands.length ∧ targets.length = operands.length := by
  cases h with
  | elementwise found noFold count typed =>
    refine ⟨?_, List.length_map _⟩
    rw [(ordered_perm _ _).length_eq, count, table_arity _ (mem_of_lookup found) noFold]
  | choose typed => exact ⟨rfl, rfl⟩

/-- What a launched operation makes of operands of their types is of the type of the result. -/
theorem hasType {made : Engine} {kernel : Kernel} {plan : OperandPlan}
    {values : List Kernel.Expression}
    (h : call.Launches engine operation operands targets result out)
    (hplanning : Planning made 0 (operation.template.operands.zip (operands.zip targets)) plan)
    (hvalues : List.Forall₂ kernel.HasType values targets) :
    kernel.HasType (operation.applied plan.operands values) result := by
  obtain ⟨hcount, htypes⟩ := h.counts
  have hlength := hvalues.length_eq
  cases h with
  | @elementwise tag given out operation common found noFold count typed =>
    refine .applied found noFold (fun hfloat ↦ ?_) (by rw [hlength, htypes, hcount]) ?_
    · split
      · rfl
      · next hcommon => simpa [hfloat] using hcommon
    · have hall := (List.forall₂_map_right_iff.mp hvalues).imp fun _ _ htyped ↦
        And.intro htyped trivial
      exact ((List.forall₂_and_left _ _).mp hall).1
  | @choose buffer described yes no out common typed =>
    have hoperands := hplanning.length_operands
    match values, hvalues with
    | [condition, first, second], .cons hcondition (.cons hfirst (.cons hsecond .nil)) =>
      cases hplanning with
      | scalar noArray => exact absurd rfl (noArray _ _)
      | @array _ _ _ _ _ _ plan later =>
        obtain ⟨described, bindings, constants⟩ := plan
        match described, hoperands with
        | [_, _], _ => exact .chosen hcondition hfirst hsecond

end EngineCall.Launches

/-- A call on arrays submits the passes of its plan, which show what it is given. -/
theorem presenting_engineCall (hadmits : (KernelCall.arrays call).Admits engine) :
    Presenting ((KernelCall.arrays call).Submits engine) engine
      (stateAfter call.action engine) := by
  intro hreachable
  rw [EngineCall.action_eq]
  refine (Moves.bindAt
    (Moves.plan (.newArray Presenting.allocate) Presenting.stridesBuffer call engine)
    fun plan hplan ↦ .carryOut ?_ : Presenting _ _ _) hreachable
  have hsettles := EngineCall.settles_of_plan hplan
  generalize stateAfter call.plan engine = planned at hsettles ⊢
  cases hsettles with
  | launch launches shaped output made =>
    obtain ⟨hcount, htypes⟩ := launches.counts
    obtain ⟨kernel, helpers, hlaunched⟩ :=
      launched_of_elementwisePass hcount htypes launches.hasType made
    exact .launch launches shaped output hlaunched
  | @fold tag source described out _ _ _ _ _ _ _ found isFold length output single made =>
    have hsource : ∃ array, engine.arrays.lookup source = some array :=
      hadmits source (mem_arrays List.mem_cons_self)
    have hout : ∀ buffer described, out = .array buffer described →
        ∃ array, engine.arrays.lookup buffer = some array := by
      rintro buffer described rfl
      exact hadmits buffer (mem_arrays (List.mem_cons_of_mem _ (List.mem_singleton_self _)))
    obtain ⟨hnumbered, hkeeps, htarget, -⟩ := output_eq_ok hreachable.numbered
      (fun input hmem ↦ List.mem_singleton.mp hmem ▸ hsource) hout output
    obtain ⟨-, hpasses⟩ := foldedPasses_of_foldDispatches found isFold hnumbered
      (hkeeps.exists_lookup hsource) (by rw [hkeeps.array_eq hsource]) htarget made
    exact .fold found isFold output hpasses

/-! ### Generators -/

section Generators

variable {start : Engine} {state : Nat} {elementName : Value} {element : ElementType}

theorem Presenting.newContiguous (element : ElementType) (shape : List Int) :
    Moves (Presenting shows) (Action.newContiguous element shape) :=
  .newContiguous allocate element shape

theorem Presenting.generator (state : Nat) : Moves (Presenting shows) (Action.generator state) :=
  .bind .get fun _ ↦ .pure _

theorem presenting_skipDraw (state : Nat) :
    Moves (Presenting ((KernelCall.skip state).Submits start)) (Action.skipDraw state) := by
  refine .bind (.generator state) fun generator ↦ .bind .get fun current ↦
    .bind (fun engine ↦ .submit [] [] (.skip (drawnPass_skip _ _ _ _))) fun _ ↦ .pure _

theorem presenting_drawUniform (state : Nat) (elementName : Value) :
    Moves (Presenting ((KernelCall.uniform state elementName).Submits start))
      (Action.drawUniform state elementName) := by
  refine .bind (.generator state) fun generator engine hreachable ↦ ?_
  refine (Moves.bindAt (Moves.ofExcept (ElementType.ofValue elementName) engine)
    fun element helement ↦ ?_ : Presenting _ _ _) hreachable
  rw [outcomeOf_ofExcept] at helement
  rw [stateAfter_ofExcept]
  dsimp only
  by_cases hinteger : element = .i32
  · rw [if_pos hinteger]
    exact refl_of (Presenting _) engine
  rw [if_neg hinteger]
  refine Moves.bindAt (.newContiguous _ _ engine) fun out hout ↦ ?_
  obtain ⟨array, htype, -, -, hlookup⟩ := newContiguous_fresh hreachable.numbered hout
  rw [stateAfter_bind_of_ok (outcomeOf_get _), stateAfter_get]
  refine Moves.bindAt (.submit [] [] ?_) fun _ _ ↦ refl_of _ _
  rw [← array_of_lookup hlookup] at htype
  exact .uniform (by rw [helement, htype]) (drawnPass_draw hinteger htype)

theorem presenting_drawNormalPair (state : Nat)
    (helement : ElementType.ofValue elementName = .ok element) :
    Moves (Presenting ((KernelCall.normal state elementName).Submits start))
      (Action.drawNormalPair state element) := by
  refine .bind (.generator state) fun generator engine hreachable ↦ ?_
  refine (Moves.bindAt (.newContiguous _ _ engine) fun first hfirst ↦
    Moves.bindAt (.newContiguous _ _ _) fun second hsecond ↦ ?_ : Presenting _ _ _) hreachable
  obtain ⟨array, htype, hnumbered, -, hlookup⟩ := newContiguous_fresh hreachable.numbered hfirst
  obtain ⟨array', htype', -, hkeeps, hlookup'⟩ := newContiguous_fresh hnumbered hsecond
  rw [← array_of_lookup (hkeeps.arrays first array hlookup)] at htype
  rw [← array_of_lookup hlookup'] at htype'
  rw [stateAfter_bind_of_ok (outcomeOf_get _), stateAfter_get]
  refine Moves.bindAt (.submit [] [] ?_) fun _ _ ↦
    Moves.bind (.setGenerator _ _) (fun _ ↦ .pure _) _
  exact .normal (by rw [helement, htype]) (by rw [htype, htype'])
    (drawnPass_normalPair htype htype')

theorem presenting_drawNormal (state : Nat) (elementName : Value) :
    Moves (Presenting ((KernelCall.normal state elementName).Submits start))
      (Action.drawNormal state elementName) := by
  intro engine
  refine Moves.bindAt (Moves.ofExcept (ElementType.ofValue elementName) engine)
    fun element helement ↦ ?_
  rw [outcomeOf_actionOfExcept] at helement
  have hpair := @presenting_drawNormalPair start elementName element state helement
  have htake : Moves (Presenting ((KernelCall.normal state elementName).Submits start))
      (Action.takeKept state) :=
    fun engine ↦ Presenting.setGenerator state { engine.generator state with kept := none } engine
  refine Moves.guard _ (.bind htake fun kept ↦ ?_) _
  split
  · split
    · exact .pure _
    · exact .bind (.release _) fun _ ↦ hpair
  · exact hpair

section Derivations

variable {size seed entropy : Value} {rows : Int}
  (hstreams : outcomeOf (Action.newContiguous .u32 [rows, 4]) start = .ok state)
include hstreams

/-- The submissions in which streams are derived show the streams and the cursor. -/
theorem presenting_submissions {cursor : Nat} (counts : List Nat)
    (hcursor : (engine.array cursor).element = .u32) :
    Presenting ((KernelCall.generator size seed entropy).Submits start) engine
      (stateAfter (Generator.submissions counts state cursor) engine) := by
  induction counts generalizing engine with
  | nil => exact refl_of (Presenting _) engine
  | cons count rest ih =>
    refine Moves.bindAt ?_ fun _ _ ↦ ih ?_
    · rw [stateAfter_discard]
      exact .submit [] [] (.derive hstreams (presents_derive hcursor))
    · rw [stateAfter_discard, (sameFixture_submit _ _ _ engine).element, hcursor]

theorem presenting_deriveStreams (count : Nat) :
    Moves (Presenting ((KernelCall.generator size seed entropy).Submits start))
      (Action.deriveStreams count state) := by
  intro engine hreachable
  refine (Moves.bindAt (Moves.newArray Presenting.allocate _ _ _ engine) fun cursor hcursor ↦
    Moves.bindAt (.setValue cursor (.int 1) [] _) fun _ hset ↦
      Moves.bindAt (presenting_submissions hstreams _ ?_) fun _ _ ↦ .release cursor _ :
        Presenting _ _ _) hreachable
  obtain ⟨size, fresh, array, rfl, htype, -, -, -, hstate⟩ :=
    Generator.upload_cursor hreachable.numbered hcursor hset
  rw [hstate, array_setArray_self _ hreachable.numbered.lookup_allocated, htype]

end Derivations

/-- A new generator derives the streams in the array it has just made. -/
theorem presenting_newGenerator (size seed entropy : Value) (engine : Engine) :
    Presenting ((KernelCall.generator size seed entropy).Submits engine) engine
      (stateAfter (Action.newGenerator size seed entropy) engine) := by
  refine Moves.bindAt (Moves.ofExcept size.toInt engine) fun rows _ ↦ ?_
  rw [stateAfter_actionOfExcept]
  refine Moves.bindAt (Moves.ofExcept _ engine) fun first _ ↦ ?_
  rw [stateAfter_actionOfExcept]
  refine Moves.bindAt (Presenting.newContiguous _ _ engine) fun state hstreams ↦ ?_
  have hadd : Moves (Presenting ((KernelCall.generator size seed entropy).Submits engine)) (do
      modify (Engine.addGenerator state ⟨rows.toNat, first, none⟩)
      return state : Action Nat) :=
    .bind (.addGenerator state _) fun _ ↦ .pure _
  refine Moves.bind (.ofExcept _) (fun _ ↦ .bind (.ofExcept _) fun stream ↦
    .bind (Presenting.setElements state _) fun _ ↦ ?_) _
  dsimp only
  split
  · exact .bind (presenting_deriveStreams hstreams _) fun _ ↦ hadd
  · exact hadd

end Generators

/-! ### All calls -/

/-- Whatever a call submits, in every pass the kernel declares what is bound to it, slot by slot. -/
theorem interfaces_of_call (hreachable : engine.Reachable) {call : KernelCall}
    (hadmits : call.Admits engine) :
    Submitting (call.Submits engine) engine (stateAfter call.action engine) := by
  have hpresenting : Presenting (call.Submits engine) engine (stateAfter call.action engine) := by
    cases call with
    | arrays call =>
      rw [KernelCall.action, stateAfter_discard]
      exact presenting_engineCall hadmits
    | generator size seed entropy =>
      rw [KernelCall.action, stateAfter_discard]
      exact presenting_newGenerator size seed entropy engine
    | uniform state elementName =>
      rw [KernelCall.action, stateAfter_discard]
      exact presenting_drawUniform state elementName engine
    | normal state elementName =>
      rw [KernelCall.action, stateAfter_discard]
      exact presenting_drawNormal state elementName engine
    | skip state => exact presenting_skipDraw state engine
  exact (hpresenting hreachable).2

/-- An engine with a column of two half precision floats, and three integers that lie two apart. -/
def mixedEngine : Engine :=
  (Engine.create (.createWith (fun _ _ held ↦ held) [Device.halfFeature] ⟨256, 256, 65535⟩ none)
    ⟨.highPerformance, .bool true, 64, .none⟩).afterAll
      [.allocate .f16 [2, 1] [1, 1] false 2, .allocate .i32 [3] [2] true 5]

/-- The column where the integers are not zero, and a number elsewhere. -/
def mixedCall : EngineCall := .choose (.array 2 "") (.array 1 "") (.int 3) .none

/-- The choice is one strided pass: two arrays, the output and the strides of all three are bound,
and the number is a constant. -/
theorem interfaces_of_call_mixed :
    ((outcomeOf mixedCall.plan mixedEngine).toOption.map fun plan ↦ plan.dispatches.map
      fun pass ↦ (pass.bindings.length, pass.constants.map Prod.fst)) = some [(6, ["y"])] ∧
      outcomeOf (KernelCall.arrays mixedCall).action mixedEngine = .ok ⟨⟩ ∧
      Submitting ((KernelCall.arrays mixedCall).Submits mixedEngine) mixedEngine
        (stateAfter (KernelCall.arrays mixedCall).action mixedEngine) := by
  have hreachable : mixedEngine.Reachable := ⟨_, _, _, _, _, _, fun _ _ ↦ trivial, rfl⟩
  have hadmits : (KernelCall.arrays mixedCall).Admits mixedEngine := by
    intro buffer hmem
    rw [← Option.isSome_iff_exists]
    revert buffer
    decide +kernel
  exact ⟨by decide +kernel, eq_ok_iff.mpr (by decide +kernel),
    interfaces_of_call hreachable hadmits⟩

end ComputeArray
