import ComputeArray.Proofs.Launch.Plan
import ComputeArray.Proofs.Run.Primitive

/-!
# Actions are made of primitives

The operations, the generators and the constructors of an engine, each taken apart into primitive
actions. Operations on arrays and draws of a generator leave the host copies of arrays alone;
constructors and new generators also store elements.
-/

set_option autoImplicit false

namespace ComputeArray

open Primitive

variable {α β : Type} {allowed : Primitive → Prop}

namespace Moves

variable {R : Engine → Engine → Prop} [Std.Refl R] [IsTrans Engine R]

/-- An action behind a check that may fail. -/
theorem guard {condition : Prop} [Decidable condition] (failure : Failure) {next : Action α}
    (hnext : Moves R next) :
    Moves R (if condition then (do MonadExcept.throw failure; next) else next) := by
  split
  · exact .bind (.throw _) fun _ ↦ hnext
  · exact hnext

/-! ### Arrays -/

theorem checkElement (element : ElementType) : Moves R (Action.checkElement element) := by
  refine .bind .get fun engine ↦ ?_
  split
  · exact .throw _
  · exact .pure _

/-- Finding the type of an operation only looks at the arrays. -/
theorem commonType (operands : List Value) : Moves R (Action.commonType operands) := by
  refine .bind .get fun engine ↦ ?_
  dsimp only
  refine .guard _ (.bind (.ofExcept _) fun common ↦
    .bind (.mapM _ fun value _ ↦ ?_) fun types ↦ .ofExcept _)
  cases value with
  | array buffer described => exact .pure _
  | _ => exact .ofExcept _

/-- So does finding the shape of the output of a reduction. -/
theorem foldShape (out : Value) : Moves R (Action.foldShape out) := by
  unfold Action.foldShape
  split
  · exact .pure _
  · exact .bind (.array _) fun _ ↦ .pure _
  · exact .throw _

section Allocate

variable (hallocate : ∀ element shape strides customStrides count,
  Moves R (Action.allocate element shape strides customStrides count))
include hallocate

theorem newArray (shape elementName strides : Value) :
    Moves R (Action.newArray shape elementName strides) := by
  refine .bind .assertActive fun _ ↦ .bind (.ofExcept _) fun element ↦
    .bind (checkElement element) fun _ ↦ .bind (.ofExcept _) fun extents ↦ ?_
  dsimp only
  split
  · exact .bind (.ofExcept _) fun count ↦ hallocate _ _ _ _ _
  · exact .bind (.ofExcept _) fun given ↦ hallocate _ _ _ _ _

theorem newContiguous (element : ElementType) (shape : List Int) :
    Moves R (Action.newContiguous element shape) :=
  newArray hallocate _ _ _

end Allocate

section NewArray

variable (hnew : ∀ shape elementName strides, Moves R (Action.newArray shape elementName strides))
include hnew

/-- An output at most makes a fresh array. -/
theorem output (out : Value) (shape : List Int) (element : ElementType) (inputs : List Nat) :
    Moves R (Action.output out shape element inputs) := by
  unfold Action.output
  split
  · exact .bind (hnew _ _ _) fun _ ↦ .pure _
  · refine .bind (.array _) fun array ↦ ?_
    dsimp only
    refine .guard _ (.guard _ ?_)
    split
    · exact .bind (hnew _ _ _) fun _ ↦ .pure _
    · exact .pure _
  · exact .throw _

omit [IsTrans Engine R] in
theorem foldDestination (element : ElementType) (target : Nat) (lanes : Int) :
    Moves R (Action.foldDestination element target lanes) := by
  unfold Action.foldDestination
  split
  · exact .pure _
  · exact hnew _ _ _

/-- The passes of a reduction at most make the arrays in between. -/
theorem foldDispatches (operation : Operation) (element : ElementType) (target : Nat)
    (passes : List (Int × Int)) (source : Nat) :
    Moves R (Action.foldDispatches operation element target source passes) := by
  induction passes generalizing source with
  | nil => exact .pure _
  | cons pass rest ih =>
    obtain ⟨n, lanes⟩ := pass
    exact .bind (foldDestination hnew _ _ _) fun _ ↦ .bind .get fun _ ↦
      .bind (ih _) fun _ ↦ .pure _

end NewArray

section StridesBuffer

variable (hstrides : ∀ strides, Moves R (Action.stridesBuffer strides))
include hstrides

theorem stridesBuffersIf (strided : Bool) (names : List String) (operands : List Value)
    (shape : List Int) : Moves R (Action.stridesBuffersIf strided names operands shape) := by
  unfold Action.stridesBuffersIf
  split
  · refine .bind .get fun engine ↦ .bind (.filterMapM _ fun named _ ↦ ?_) fun inputs ↦
      .bind (hstrides _) fun _ ↦ .pure _
    obtain ⟨name, value⟩ := named
    cases value with
    | array buffer described =>
      exact .bind (.ofExcept _) fun strides ↦ .bind (hstrides _) fun _ ↦ .pure _
    | _ => exact .pure _
  · exact .pure _

/-- A pass at most creates stride buffers. -/
theorem elementwisePass (operation : Operation) (operands : List Value)
    (targets : List ElementType) (result : ElementType) (shape : List Int) (strided : Bool)
    (target : Nat) :
    Moves R (Action.elementwisePass operation operands targets result shape strided target) :=
  .bind .get fun _ ↦ .bind (.ofExcept _) fun _ ↦ .bind (.array _) fun _ ↦
    .bind (stridesBuffersIf hstrides _ _ _ _) fun _ ↦ .bind (.ofExcept _) fun _ ↦
      .bind (.ofExcept _) fun _ ↦ .pure _

end StridesBuffer

section Release

variable (hrelease : ∀ buffer, Moves R (modify (Engine.release buffer) : Action Unit))
include hrelease

theorem releaseAll (buffers : List Nat) :
    Moves R (modify fun engine ↦
      buffers.foldl (fun engine buffer ↦ engine.release buffer) engine : Action Unit) :=
  Engine.foldl_release hrelease buffers

/-- Settling an output at most gives up the array it has been copied from. -/
theorem settleOutput (target : Nat) (given : Option Nat) :
    Moves R (Action.settleOutput target given) := by
  cases given with
  | none => exact .pure _
  | some out => exact .bind (hrelease _) fun _ ↦ .pure _

end Release

end Moves

theorem stateAfter_commonType (operands : List Value) (engine : Engine) :
    stateAfter (Action.commonType operands) engine = engine :=
  (Moves.commonType operands engine : engine = _).symm

theorem stateAfter_foldShape (out : Value) (engine : Engine) :
    stateAfter (Action.foldShape out) engine = engine :=
  (Moves.foldShape out engine : engine = _).symm

theorem madeOf_allocate (element : ElementType) (shape strides : List Nat) (customStrides : Bool)
    (count : Int) :
    MadeOf Computes (Action.allocate element shape strides customStrides count) := by
  exact .single (.allocate element shape strides customStrides count) ⟨trivial, id⟩ fun engine ↦
    (Engine.after_allocate engine _ _ _ _ _).symm

theorem madeOf_newArray (shape elementName strides : Value) :
    MadeOf Computes (Action.newArray shape elementName strides) :=
  .newArray madeOf_allocate _ _ _

theorem madeOf_newContiguous (element : ElementType) (shape : List Int) :
    MadeOf Computes (Action.newContiguous element shape) :=
  .newContiguous madeOf_allocate _ _

theorem madeOf_release (buffer : Nat) : MadeOf Computes (modify (Engine.release buffer)) :=
  .single (.release buffer) ⟨trivial, id⟩ fun _ ↦ rfl

theorem madeOf_submit (dispatches : List Dispatch) (helpers : List Nat)
    (copies : List (Nat × Nat)) (hplain : ∀ dispatch ∈ dispatches, dispatch.ReadsPlain) :
    MadeOf Computes (Action.submit dispatches helpers copies) := by
  exact .single (.submit dispatches helpers copies) ⟨hplain, id⟩ fun engine ↦
    (Engine.after_submit engine _ _ _).symm

/-! ### Operations -/

theorem madeOf_output (out : Value) (shape : List Int) (element : ElementType)
    (inputs : List Nat) : MadeOf Computes (Action.output out shape element inputs) :=
  .output madeOf_newArray _ _ _ _

theorem madeOf_stridesBuffer (strides : List Int) :
    MadeOf Computes (Action.stridesBuffer strides) := by
  exact .single (.stridesBuffer strides) ⟨trivial, id⟩ fun engine ↦
    (Engine.after_stridesBuffer engine _).symm

/-- All bindings made for operands are arrays to be read, and among the given ones. -/
def OperandPlan.ReadsOnly (inputs : List Nat) (plan : OperandPlan) : Prop :=
  ∀ binding ∈ plan.bindings, ∃ buffer ∈ inputs, binding = (Resource.array buffer, Mode.read)

theorem OperandPlan.readsOnly_add {engine : Engine} {inputs : List Nat} {plan next : OperandPlan}
    {name : String} {value : Value} {target : ElementType} (h : plan.ReadsOnly inputs)
    (hvalue : ∀ buffer described, value = .array buffer described → buffer ∈ inputs)
    (hadd : plan.add engine name value target = .ok next) : next.ReadsOnly inputs := by
  rcases add_cases hadd with ⟨buffer, described, rfl, rfl⟩ | ⟨-, constant, -, rfl⟩
  · intro binding hmem
    rcases List.mem_append.mp hmem with hmem | hmem
    · exact h binding hmem
    · exact ⟨buffer, hvalue buffer described rfl, List.mem_singleton.mp hmem⟩
  · exact h

theorem OperandPlan.readsOnly_foldlM {engine : Engine} {inputs : List Nat}
    (items : List (String × Value × ElementType)) {plan last : OperandPlan}
    (h : plan.ReadsOnly inputs)
    (hitems : ∀ item ∈ items, ∀ buffer described, item.2.1 = .array buffer described →
      buffer ∈ inputs)
    (hfold : items.foldlM (fun plan (name, value, element) => plan.add engine name value element)
      plan = .ok last) : last.ReadsOnly inputs := by
  induction items generalizing plan with
  | nil =>
    cases hfold
    exact h
  | cons item rest ih =>
    obtain ⟨name, value, element⟩ := item
    rw [List.foldlM_cons] at hfold
    dsimp only at hfold
    cases hadd : plan.add engine name value element with
    | error failure =>
      rw [hadd] at hfold
      cases hfold
    | ok next =>
      rw [hadd] at hfold
      exact ih (readsOnly_add h (hitems _ List.mem_cons_self) hadd)
        (fun item hmem ↦ hitems item (List.mem_cons_of_mem _ hmem)) hfold

/-- A pass binds the arrays among its operands, then its target, then its helpers. -/
theorem bindings_of_elementwisePass {operation : Operation} {operands : List Value}
    {targets : List ElementType} {result : ElementType} {shape : List Int} {strided : Bool}
    {target : Nat} {engine : Engine} {pass : Dispatch} {helpers : List Nat}
    (h : outcomeOf (Action.elementwisePass operation operands targets result shape strided target)
      engine = .ok (pass, helpers)) :
    ∀ binding ∈ pass.bindings,
      (∃ buffer ∈ Value.arrays operands, binding = (.array buffer, .read)) ∨
        binding = (.array target, .write) ∨
          ∃ helper ∈ helpers, binding = (.plain helper, .read) := by
  simp only [Action.elementwisePass, outcomeOf_bind_eq_ok, outcomeOf_get, Action.ofExcept,
    outcomeOf_ofExcept, outcomeOf_pure, Except.ok.injEq, exists_eq_left'] at h
  obtain ⟨plan, hplan, out, -, slots, -, kernel, -, lanes, -, hpass⟩ := h
  have hreads : plan.ReadsOnly (Value.arrays operands) := by
    refine OperandPlan.readsOnly_foldlM _ (by simp [OperandPlan.ReadsOnly, OperandPlan.empty]) ?_
      hplan
    intro item hmem buffer described hvalue
    have hoperand := (List.of_mem_zip (List.of_mem_zip hmem).2).1
    exact List.mem_filterMap.mpr ⟨_, hvalue ▸ hoperand, rfl⟩
  obtain ⟨rfl, rfl⟩ := Prod.mk.inj hpass
  intro binding hmem
  simp only [List.mem_append, List.mem_singleton, List.mem_map] at hmem
  rcases hmem with (hmem | rfl) | ⟨helper, hhelper, rfl⟩
  · exact .inl (hreads binding hmem)
  · exact .inr (.inl rfl)
  · exact .inr (.inr ⟨helper, List.mem_map.mpr hhelper, rfl⟩)

theorem readsPlain_of_elementwisePass {operation : Operation} {operands : List Value}
    {targets : List ElementType} {result : ElementType} {shape : List Int} {strided : Bool}
    {target : Nat} {engine : Engine} {pass : Dispatch} {helpers : List Nat}
    (h : outcomeOf (Action.elementwisePass operation operands targets result shape strided target)
      engine = .ok (pass, helpers)) : pass.ReadsPlain := by
  intro buffer mode hmem
  rcases bindings_of_elementwisePass h _ hmem with ⟨_, -, heq⟩ | heq | ⟨_, -, heq⟩ <;> cases heq
  rfl

theorem madeOf_elementwisePass (operation : Operation) (operands : List Value)
    (targets : List ElementType) (result : ElementType) (shape : List Int) (strided : Bool)
    (target : Nat) :
    MadeOf Computes
      (Action.elementwisePass operation operands targets result shape strided target) :=
  .elementwisePass madeOf_stridesBuffer _ _ _ _ _ _ _

theorem madeOf_settleOutput (target : Nat) (given : Option Nat) :
    MadeOf Computes (Action.settleOutput target given) :=
  .settleOutput madeOf_release _ _

theorem madeOf_launch (operation : Operation) (operands : List Value)
    (targets : List ElementType) (result : ElementType) (out : Value) :
    MadeOf Computes (Action.launch operation operands targets result out) := by
  refine .bind .get fun engine ↦ .bind (.ofExcept _) fun shape ↦
    .bind (madeOf_output _ _ _ _) fun destination ↦
      .bindOk (madeOf_elementwisePass _ _ _ _ _ _ _) fun made start hmade ↦ ?_
  refine .bind (madeOf_submit _ _ _ ?_) fun _ ↦ madeOf_settleOutput _ _
  intro dispatch hmem
  obtain rfl := List.mem_singleton.mp hmem
  exact readsPlain_of_elementwisePass hmade

theorem madeOf_elementwise (tag : String) (operands : List Value) (out : Value) :
    MadeOf Computes (Action.elementwise tag operands out) := by
  unfold Action.elementwise
  split
  · exact .throw _
  · dsimp only
    exact Moves.guard _ (Moves.guard _ (.bind (Moves.commonType _) fun _ ↦
      madeOf_launch _ _ _ _ _))

theorem madeOf_choose (condition yes no out : Value) :
    MadeOf Computes (Action.choose condition yes no out) := by
  unfold Action.choose
  split
  · exact .bind (Moves.commonType _) fun _ ↦ .bind (.array _) fun _ ↦ madeOf_launch _ _ _ _ _
  · exact .throw _

/-! ### Reductions -/

theorem madeOf_foldDispatches (operation : Operation) (element : ElementType) (target : Nat)
    (passes : List (Int × Int)) (source : Nat) :
    MadeOf Computes (Action.foldDispatches operation element target source passes) :=
  .foldDispatches madeOf_newArray _ _ _ _ _

section Passes

variable {engine : Engine} {operation : Operation} {element : ElementType} {target source : Nat}
  {dispatches : List Dispatch} {between : List Nat}

/-- The first pass is made, and from where it stores the rest goes on. -/
theorem foldDispatches_cons_eq_ok {n lanes : Int} {rest : List (Int × Int)}
    {dispatches : List Dispatch} {between : List Nat}
    (h : outcomeOf (Action.foldDispatches operation element target source ((n, lanes) :: rest))
      engine = .ok (dispatches, between)) :
    ∃ destination later between',
      outcomeOf (Action.foldDestination element target lanes) engine = .ok destination ∧
      outcomeOf (Action.foldDispatches operation element target destination rest)
        (stateAfter (Action.foldDestination element target lanes) engine) = .ok (later, between') ∧
      dispatches = Action.foldDispatch (stateAfter (Action.foldDestination element target lanes)
        engine) operation element source destination n lanes :: later ∧
      between = (if lanes = 1 then [] else [destination]) ++ between' ∧
      stateAfter (Action.foldDispatches operation element target source ((n, lanes) :: rest))
        engine = stateAfter (Action.foldDispatches operation element target destination rest)
          (stateAfter (Action.foldDestination element target lanes) engine) := by
  simp only [Action.foldDispatches, outcomeOf_bind_eq_ok, outcomeOf_get, stateAfter_get,
    Except.ok.injEq, exists_eq_left', outcomeOf_pure, Prod.exists, Prod.mk.injEq] at h ⊢
  obtain ⟨destination, hdestination, later, between', hlater, rfl, rfl⟩ := h
  refine ⟨destination, later, between', hdestination, hlater, rfl, rfl, ?_⟩
  rw [stateAfter_bind_of_ok hdestination, stateAfter_bind_of_ok (outcomeOf_get _), stateAfter_get,
    stateAfter_bind_of_ok hlater, stateAfter_pure]

/-- What holds of every pass over an array holds of all that are planned. -/
theorem forall_of_foldDispatches {P : Dispatch → Prop} {passes : List (Int × Int)}
    (hpass : ∀ engine source destination n lanes,
      P (Action.foldDispatch engine operation element source destination n lanes))
    (h : outcomeOf (Action.foldDispatches operation element target source passes) engine =
      .ok (dispatches, between)) : ∀ dispatch ∈ dispatches, P dispatch := by
  induction passes generalizing source engine dispatches between with
  | nil =>
    cases h
    exact nofun
  | cons pass rest ih =>
    obtain ⟨destination, later, between', -, hlater, rfl, -⟩ := foldDispatches_cons_eq_ok h
    exact List.forall_mem_cons.mpr ⟨hpass _ _ _ _ _, ih hlater⟩

theorem readsPlain_of_foldDispatches {passes : List (Int × Int)}
    (h : outcomeOf (Action.foldDispatches operation element target source passes) engine =
      .ok (dispatches, between)) : ∀ dispatch ∈ dispatches, dispatch.ReadsPlain :=
  forall_of_foldDispatches (fun _ _ _ _ _ buffer mode hbinding ↦ by
    simp [Action.foldDispatch] at hbinding) h

end Passes

theorem madeOf_reduce (tag : String) (argument out : Value) :
    MadeOf Computes (Action.reduce tag argument out) := by
  unfold Action.reduce
  split
  · exact .throw _
  · dsimp only
    refine Moves.guard _ ?_
    split
    · refine .bind (.array _) fun array ↦ Moves.guard _ (.bind (.foldShape _) fun shape ↦
        .bind (madeOf_output _ _ _ _) fun destination ↦ .bind (.array _) fun targetArray ↦
          .bind (.ofExcept _) fun length ↦ ?_)
      refine Moves.guard _ (.bind (.ofExcept _) fun n ↦ .bind .get fun engine ↦
        .bindOk (madeOf_foldDispatches _ _ _ _ _) fun made start hmade ↦ ?_)
      exact .bind (madeOf_submit _ _ _ (readsPlain_of_foldDispatches hmade)) fun _ ↦
        .bind (.releaseAll madeOf_release _) fun _ ↦ madeOf_settleOutput _ _
    · exact .throw _

/-! ### Operations by name -/

namespace Moves

variable {R : Engine → Engine → Prop} [Std.Refl R] [IsTrans Engine R]

section Operations

variable (helementwise : ∀ tag operands out, Moves R (Action.elementwise tag operands out))

include helementwise in
omit [IsTrans Engine R] in
theorem arithmetic (symbol : String) (left right : Value) :
    Moves R (Action.arithmetic symbol left right) := by
  unfold Action.arithmetic
  split
  · exact helementwise _ _ _
  · exact .throw _

variable (hreduce : ∀ tag argument out, Moves R (Action.reduce tag argument out))

include hreduce in
theorem callReduce (tag : String) (arguments : List Value) (out : Option Value) :
    Moves R (Action.callReduce tag arguments out) :=
  .bind (.ofExcept _) fun _ ↦ hreduce _ _ _

include helementwise hreduce in
theorem call (hchoose : ∀ condition yes no out, Moves R (Action.choose condition yes no out))
    (name : String) (arguments : List Value) (out : Option Value) :
    Moves R (Action.call name arguments out) := by
  unfold Action.call
  split
  · exact .throw _
  · refine .bind (.ofExcept _) fun values ↦ ?_
    dsimp only
    split
    · exact hchoose _ _ _ _
    · split
      · exact hreduce _ _ _
      · exact helementwise _ _ _

end Operations

end Moves

theorem madeOf_call (name : String) (arguments : List Value) (out : Option Value) :
    MadeOf Computes (Action.call name arguments out) :=
  .call madeOf_elementwise madeOf_reduce madeOf_choose _ _ _

theorem madeOf_callReduce (tag : String) (arguments : List Value) (out : Option Value) :
    MadeOf Computes (Action.callReduce tag arguments out) :=
  .callReduce madeOf_reduce _ _ _

theorem madeOf_arithmetic (symbol : String) (left right : Value) :
    MadeOf Computes (Action.arithmetic symbol left right) :=
  .arithmetic madeOf_elementwise _ _ _

/-! ### Generators -/

theorem madeOf_setGenerator (state : Nat) (generator : Generator) :
    MadeOf Computes (modify (Engine.setGenerator state generator)) :=
  .single (.setGenerator state generator) ⟨trivial, id⟩ fun _ ↦ rfl

theorem readsPlain_generatorDispatch (generator : Generator) (state : Nat) (kernel : Kernel)
    (outputs : List Nat) : (generator.dispatch state kernel outputs).ReadsPlain := by
  intro buffer mode hbinding
  simp [Generator.dispatch] at hbinding

theorem madeOf_generator (state : Nat) : MadeOf Computes (Action.generator state) :=
  .bind .get fun _ ↦ .pure _

theorem madeOf_draw (generator : Generator) (state : Nat) (kernel : Kernel)
    (outputs : List Nat) :
    MadeOf Computes (Action.submit [generator.dispatch state kernel outputs] [] []) := by
  refine madeOf_submit _ _ _ fun dispatch hmem ↦ ?_
  obtain rfl := List.mem_singleton.mp hmem
  exact readsPlain_generatorDispatch _ _ _ _

theorem madeOf_drawUniform (state : Nat) (elementName : Value) :
    MadeOf Computes (Action.drawUniform state elementName) := by
  refine .bind (madeOf_generator _) fun _ ↦ .bind (.ofExcept _) fun _ ↦ ?_
  dsimp only
  exact Moves.guard _ (.bind (madeOf_newContiguous _ _) fun _ ↦ .bind .get fun _ ↦
    .bind (madeOf_draw _ _ _ _) fun _ ↦ .pure _)

theorem madeOf_skipDraw (state : Nat) : MadeOf Computes (Action.skipDraw state) :=
  .bind (madeOf_generator _) fun _ ↦ .bind .get fun _ ↦ .bind (madeOf_draw _ _ _ _) fun _ ↦
    .pure _

theorem madeOf_takeKept (state : Nat) : MadeOf Computes (Action.takeKept state) := by
  intro engine
  exact madeOf_setGenerator state { engine.generator state with kept := none } engine

theorem madeOf_drawNormalPair (state : Nat) (element : ElementType) :
    MadeOf Computes (Action.drawNormalPair state element) :=
  .bind (madeOf_generator _) fun _ ↦ .bind (madeOf_newContiguous _ _) fun _ ↦
    .bind (madeOf_newContiguous _ _) fun _ ↦ .bind .get fun _ ↦
      .bind (madeOf_draw _ _ _ _) fun _ ↦ .bind (madeOf_setGenerator _ _) fun _ ↦ .pure _

theorem madeOf_drawNormal (state : Nat) (elementName : Value) :
    MadeOf Computes (Action.drawNormal state elementName) := by
  refine .bind (.ofExcept _) fun element ↦ ?_
  dsimp only
  refine Moves.guard _ (.bind (madeOf_takeKept _) fun kept ↦ ?_)
  split
  · split
    · exact .pure _
    · exact .bind (madeOf_release _) fun _ ↦ madeOf_drawNormalPair _ _
  · exact madeOf_drawNormalPair _ _

/-! ### Constructors -/

theorem madeOf_setValue (buffer : Nat) (value : Value) (index : List Value) :
    MadeOf Proper (Action.setValue buffer value index) :=
  .single (.setValue buffer value index) trivial fun _ ↦ rfl

theorem madeOf_setElements (buffer : Nat) (values : List Nat) :
    MadeOf Proper (Action.setElements buffer values) :=
  .single (.setElements buffer values) trivial fun _ ↦ rfl

theorem MadeOf.proper {m : Action α} (h : MadeOf Computes m) : MadeOf Proper m :=
  h.mono fun _ _ hleads ↦ hleads.mono fun _ ↦ Computes.proper

namespace Moves

variable {R : Engine → Engine → Prop} [Std.Refl R] [IsTrans Engine R]

/-- Where arrays are among the ends of a range, it computes with them and then fails. -/
theorem rangeElements
    (harithmetic : ∀ symbol left right, Moves R (Action.arithmetic symbol left right))
    (element : ElementType) (start stop step : Value) :
    Moves R (Action.rangeElements element start stop step) := by
  have hcomputed (symbol : String) (left right : Value) :
      Moves R (MonadExcept.tryCatch (Action.arithmetic symbol left right)
        fun failure ↦ MonadExcept.throw (Range.failureOf failure)) :=
    .tryCatch (harithmetic symbol left right) fun _ ↦ .throw _
  unfold Action.rangeElements
  dsimp only
  split
  · exact .bind (hcomputed _ _ _) fun _ ↦ .bind (.bind (.array _) fun _ ↦ .pure _) fun _ ↦
      .bind (hcomputed _ _ _) fun _ ↦ .throw _
  · split
    · exact .bind (.ofExcept _) fun _ ↦ .bind (hcomputed _ _ _) fun _ ↦ .throw _
    · exact .ofExcept _

section Constructors

variable (hnew : ∀ shape elementName strides, Moves R (Action.newArray shape elementName strides))
  (hvalue : ∀ buffer value index, Moves R (Action.setValue buffer value index))
  (helements : ∀ buffer values, Moves R (Action.setElements buffer values))
  (hrange : ∀ element start stop step, Moves R (Action.rangeElements element start stop step))

include hnew hvalue in
theorem full (value shape elementName : Value) :
    Moves R (Action.full value shape elementName) :=
  .bind (hnew _ _ _) fun _ ↦ .bind (hvalue _ _ _) fun _ ↦ .pure _

include hnew helements in
theorem ofTable (value : Value) : Moves R (Action.ofTable value) :=
  .bind (.ofExcept _) fun _ ↦ .bind (hnew _ _ _) fun _ ↦ .bind (.array _) fun _ ↦
    .bind (.ofExcept _) fun _ ↦ .bind (helements _ _) fun _ ↦ .pure _

include hnew helements hrange in
theorem range (arguments : List Value) (named : List (String × Value)) :
    Moves R (Action.range arguments named) := by
  refine .bind (.ofExcept _) fun values ↦ ?_
  dsimp only
  refine .bind (.ofExcept _) fun element ↦ .bind (hrange _ _ _ _) fun elements ↦
    .guard _ (.bind (hnew _ _ _) fun buffer ↦ .bind (.array _) fun array ↦
      .bind (.ofExcept _) fun length ↦ .guard _ ?_)
  exact .bind (helements _ _) fun _ ↦ .pure _

include hnew hvalue helements hrange

theorem construct {name : String} {arguments : List Value} {named : List (String × Value)}
    {action : Action Nat} (h : Action.construct? name arguments named = some action) :
    Moves R action := by
  unfold Action.construct? at h
  dsimp only at h
  split at h <;> cases h
  · exact .bind (.ofExcept _) fun _ ↦ hnew _ _ _
  · exact .bind (.ofExcept _) fun _ ↦ hnew _ _ _
  · exact .bind (.ofExcept _) fun _ ↦ full hnew hvalue _ _ _
  · exact .bind (.ofExcept _) fun _ ↦ full hnew hvalue _ _ _
  · exact range hnew helements hrange _ _
  · exact .bind (.ofExcept _) fun _ ↦ ofTable hnew helements _

theorem callByName (hcall : ∀ name arguments out, Moves R (Action.call name arguments out))
    (name : String) (arguments : List Value) (out : Option Value) :
    Moves R (Action.callByName name arguments out) := by
  unfold Action.callByName
  cases h : Action.construct? name arguments (Action.namedOutput out) with
  | none => exact hcall _ _ _
  | some action => exact construct hnew hvalue helements hrange h

end Constructors

end Moves

theorem madeOf_make (shape elementName strides : Value) :
    MadeOf Proper (Action.newArray shape elementName strides) :=
  (madeOf_newArray shape elementName strides).proper

theorem madeOf_rangeElements (element : ElementType) (start stop step : Value) :
    MadeOf Proper (Action.rangeElements element start stop step) :=
  MadeOf.proper (.rangeElements madeOf_arithmetic element start stop step)

theorem madeOf_full (value shape elementName : Value) :
    MadeOf Proper (Action.full value shape elementName) :=
  .full madeOf_make madeOf_setValue _ _ _

theorem madeOf_range (arguments : List Value) (named : List (String × Value)) :
    MadeOf Proper (Action.range arguments named) :=
  .range madeOf_make madeOf_setElements madeOf_rangeElements _ _

theorem madeOf_ofTable (value : Value) : MadeOf Proper (Action.ofTable value) :=
  .ofTable madeOf_make madeOf_setElements _

theorem madeOf_callByName (name : String) (arguments : List Value) (out : Option Value) :
    MadeOf Proper (Action.callByName name arguments out) :=
  .callByName madeOf_make madeOf_setValue madeOf_setElements madeOf_rangeElements
    (fun name arguments out ↦ (madeOf_call name arguments out).proper) _ _ _

theorem madeOf_deriveStreams (size state : Nat) :
    MadeOf Proper (Action.deriveStreams size state) := by
  refine .bind (madeOf_newArray _ _ _).proper fun cursor ↦ .bind (madeOf_setValue _ _ _) fun _ ↦
    .bind (.forM _ fun count _ ↦ .bind (madeOf_submit _ _ _ ?_).proper fun _ ↦ .pure _) fun _ ↦
      (madeOf_release _).proper
  intro dispatch hmem
  obtain rfl := List.eq_of_mem_replicate hmem
  intro buffer mode hbinding
  simp at hbinding

theorem madeOf_newGenerator (size seed entropy : Value) :
    MadeOf Proper (Action.newGenerator size seed entropy) := by
  refine .bind (.ofExcept _) fun size ↦ .bind (.ofExcept _) fun seed ↦
    .bind (madeOf_newContiguous _ _).proper fun state ↦ .bind (.ofExcept _) fun _ ↦
      .bind (.ofExcept _) fun first ↦ .bind (madeOf_setElements _ _) fun _ ↦ ?_
  have hadd : MadeOf Proper (do
      modify (Engine.addGenerator state ⟨size.toNat, seed, none⟩)
      return state : Action Nat) :=
    .bind (.single (.addGenerator state ⟨size.toNat, seed, none⟩) trivial fun _ ↦ rfl)
      fun _ ↦ .pure _
  dsimp only
  split
  · exact .bind (madeOf_deriveStreams _ _) fun _ ↦ hadd
  · exact hadd

end ComputeArray
