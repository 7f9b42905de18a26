import ComputeArray.Proofs.Run.Decomposition

/-!
# Plans of calls

A call that runs kernels on arrays first settles what its submission consists of, then submits it
once, and then gives up the arrays that were needed in between (`EngineCall.action_eq`). Whatever is
wrong with its operands shows before the submission.
-/

set_option autoImplicit false

namespace ComputeArray

/-- The calls that run kernels on arrays. -/
inductive EngineCall where
  | elementwise (tag : String) (operands : List Value) (out : Value)
  | choose (condition yes no out : Value)
  | reduce (tag : String) (argument out : Value)

/-- What a call has settled before its submission. -/
structure CallPlan where
  dispatches : List Dispatch
  /-- The stride buffers of the passes. -/
  helpers : List Nat
  /-- The arrays that hold results of all passes but the last. -/
  between : List Nat
  /-- The array the last pass writes. -/
  target : Nat
  /-- The given output the target is copied into, if it is another array. -/
  given : Option Nat

namespace CallPlan

def copies (plan : CallPlan) : List (Nat × Nat) :=
  plan.given.toList.map fun out => (plan.target, out)

/-- Submits the passes, and gives up the arrays in between. -/
def carryOut (plan : CallPlan) : Action Nat := do
  let _ ← Action.submit plan.dispatches plan.helpers plan.copies
  modify fun engine => plan.between.foldl (fun engine buffer => engine.release buffer) engine
  Action.settleOutput plan.target plan.given

end CallPlan

namespace EngineCall

def action : EngineCall → Action Nat
  | elementwise tag operands out => Action.elementwise tag operands out
  | choose condition yes no out => Action.choose condition yes no out
  | reduce tag argument out => Action.reduce tag argument out

/-- The plan of an operation whose operands are computed in the given types. -/
def planLaunch (operation : Operation) (operands : List Value) (targets : List ElementType)
    (result : ElementType) (out : Value) : Action CallPlan := do
  let inputs := Value.arrays operands
  let arrays := inputs.map (← get).array
  let shape ← Action.ofExcept (Shape.broadcast (arrays.map ArrayState.shapeInts))
  let (target, given) ← Action.output out shape result inputs
  let (pass, helpers) ←
    Action.elementwisePass operation operands targets result shape (Launch.isStrided arrays shape)
      target
  return ⟨[pass], helpers, [], target, given⟩

def planElementwise (tag : String) (operands : List Value) (out : Value) : Action CallPlan := do
  match Operation.find? tag with
  | none => throw (.unknownOperation tag)
  | some operation =>
    if operation.template.isFold then throw (.isReduction tag)
    if operands.length ≠ operation.arity then
      throw (.operandCount tag operation.arity operands.length)
    let operands := Launch.ordered operation.commutative operands
    let common ← Action.commonType operands
    let element := if operation.floatOnly ∧ !common.isFloat then .f32 else common
    planLaunch operation operands (operands.map fun _ => element) element out

def planChoose (condition yes no out : Value) : Action CallPlan := do
  match condition with
  | .array buffer _ =>
    let element ← Action.commonType [yes, no]
    planLaunch .choice [condition, yes, no] [(← Action.array buffer).element, element, element]
      element out
  | _ => throw .conditionNotArray

def planReduce (tag : String) (argument out : Value) : Action CallPlan := do
  match Operation.find? tag with
  | none => throw (.missingKey tag)
  | some operation =>
    if !operation.template.isFold then throw (.notReduction tag)
    match argument with
    | .array source _ =>
      let array ← Action.array source
      if array.customStrides then throw .stridedReduction
      let (target, given) ← Action.output out (← Action.foldShape out) array.element [source]
      let targetArray ← Action.array target
      if (← Action.ofExcept targetArray.length) ≠ 1 then
        throw (.reductionOutput targetArray.shapeInts)
      let n ← Action.ofExcept array.length
      let (dispatches, between) ← Action.foldDispatches operation array.element target source
        (Reduction.passes (← get).workgroupSize n)
      return ⟨dispatches, [], between, target, given⟩
    | value => throw (value.lacking "custom_strides")

/-- The part of a call before its submission. -/
def plan : EngineCall → Action CallPlan
  | elementwise tag operands out => planElementwise tag operands out
  | choose condition yes no out => planChoose condition yes no out
  | reduce tag argument out => planReduce tag argument out

theorem launch_eq (operation : Operation) (operands : List Value) (targets : List ElementType)
    (result : ElementType) (out : Value) :
    Action.launch operation operands targets result out =
      planLaunch operation operands targets result out >>= CallPlan.carryOut := by
  unfold Action.launch planLaunch
  simp only [bind_assoc, pure_bind]
  rfl

theorem elementwise_eq (tag : String) (operands : List Value) (out : Value) :
    Action.elementwise tag operands out =
      planElementwise tag operands out >>= CallPlan.carryOut := by
  unfold Action.elementwise planElementwise
  cases Operation.find? tag with
  | none => rfl
  | some operation =>
    dsimp only
    split
    · rfl
    · split
      · rfl
      · simp only [bind_assoc, launch_eq]

theorem choose_eq (condition yes no out : Value) :
    Action.choose condition yes no out = planChoose condition yes no out >>= CallPlan.carryOut := by
  unfold Action.choose planChoose
  cases condition with
  | array buffer described => simp only [bind_assoc, launch_eq]
  | _ => rfl

theorem reduce_eq (tag : String) (argument out : Value) :
    Action.reduce tag argument out = planReduce tag argument out >>= CallPlan.carryOut := by
  unfold Action.reduce planReduce
  cases Operation.find? tag with
  | none => rfl
  | some operation =>
    dsimp only
    split
    · rfl
    · cases argument with
      | array source described =>
        simp only [bind_assoc]
        refine congrArg (Action.array source >>= ·) (funext fun array ↦ ?_)
        split
        · rfl
        · simp only [bind_assoc]
          refine congrArg (Action.foldShape out >>= ·) (funext fun shape ↦ ?_)
          refine congrArg (Action.output out shape array.element [source] >>= ·)
            (funext fun ⟨target, given⟩ ↦ ?_)
          dsimp only
          refine congrArg (Action.array target >>= ·) (funext fun targetArray ↦ ?_)
          refine congrArg (Action.ofExcept targetArray.length >>= ·) (funext fun length ↦ ?_)
          split
          · rfl
          · simp only [bind_assoc, pure_bind]
            rfl
      | _ => rfl

/-- A call settles its plan and carries it out. -/
theorem action_eq (call : EngineCall) : call.action = call.plan >>= CallPlan.carryOut := by
  cases call with
  | elementwise tag operands out => exact elementwise_eq tag operands out
  | choose condition yes no out => exact choose_eq condition yes no out
  | reduce tag argument out => exact reduce_eq tag argument out

/-- A call that succeeds has settled a plan and carried it out. -/
theorem action_eq_ok {call : EngineCall} {engine : Engine} {result : Nat}
    (h : outcomeOf call.action engine = .ok result) :
    ∃ plan, outcomeOf call.plan engine = .ok plan ∧
      outcomeOf plan.carryOut (stateAfter call.plan engine) = .ok result ∧
      stateAfter call.action engine = stateAfter plan.carryOut (stateAfter call.plan engine) := by
  rw [call.action_eq] at h ⊢
  obtain ⟨plan, hplan, hcarried⟩ := outcomeOf_bind_eq_ok.mp h
  exact ⟨plan, hplan, hcarried, stateAfter_bind_of_ok hplan _⟩

end EngineCall

/-! ### What plans are made of -/

theorem table_arity : ∀ entry ∈ Operation.table,
    entry.2.template.isFold = false → entry.2.arity = entry.2.template.operands.length := by
  decide

theorem ordered_perm (commutative : Bool) (operands : List Value) :
    (Launch.ordered commutative operands).Perm operands := by
  unfold Launch.ordered
  split
  · exact List.Perm.refl _
  · exact List.reverse_perm _
  · exact List.Perm.refl _

namespace EngineCall

/-- The call is an elementwise operation on operands in the order they are launched in, which are
computed in the given types, with a result of the last type. -/
inductive Launches (engine : Engine) :
    EngineCall → Operation → List Value → List ElementType → ElementType → Value → Prop
  | elementwise {tag : String} {operands : List Value} {out : Value} {operation : Operation}
      {common : ElementType}
      (found : Operation.find? tag = some operation)
      (noFold : operation.template.isFold = false)
      (count : operands.length = operation.arity)
      (typed : outcomeOf (Action.commonType (Launch.ordered operation.commutative operands))
        engine = .ok common) :
      Launches engine (.elementwise tag operands out) operation
        (Launch.ordered operation.commutative operands)
        ((Launch.ordered operation.commutative operands).map fun _ ↦
          if operation.floatOnly ∧ !common.isFloat then .f32 else common)
        (if operation.floatOnly ∧ !common.isFloat then .f32 else common) out
  | choose {buffer : Nat} {described : String} {yes no out : Value} {common : ElementType}
      (typed : outcomeOf (Action.commonType [yes, no]) engine = .ok common) :
      Launches engine (.choose (.array buffer described) yes no out) .choice
        [.array buffer described, yes, no] [(engine.array buffer).element, common, common] common
        out

/-- How a call comes to its plan, and the state it is carried out in: by one pass, or by the passes
of a reduction. -/
inductive Settles (engine : Engine) : EngineCall → CallPlan → Engine → Prop
  | launch {call : EngineCall} {operation : Operation} {operands : List Value}
      {targets : List ElementType} {result : ElementType} {out : Value} {shape : List Int}
      {target : Nat} {given : Option Nat} {pass : Dispatch} {helpers : List Nat}
      (launches : call.Launches engine operation operands targets result out)
      (shaped : Shape.broadcast (((Value.arrays operands).map engine.array).map
        ArrayState.shapeInts) = .ok shape)
      (output : outcomeOf (Action.output out shape result (Value.arrays operands)) engine =
        .ok (target, given))
      (made : outcomeOf (Action.elementwisePass operation operands targets result shape
          (Launch.isStrided ((Value.arrays operands).map engine.array) shape) target)
        (stateAfter (Action.output out shape result (Value.arrays operands)) engine) =
          .ok (pass, helpers)) :
      Settles engine call ⟨[pass], helpers, [], target, given⟩
        (stateAfter (Action.elementwisePass operation operands targets result shape
          (Launch.isStrided ((Value.arrays operands).map engine.array) shape) target)
            (stateAfter (Action.output out shape result (Value.arrays operands)) engine))
  | fold {tag : String} {source : Nat} {described : String} {out : Value} {operation : Operation}
      {shape : List Int} {n : Int} {target : Nat} {given : Option Nat} {dispatches : List Dispatch}
      {between : List Nat}
      (found : Operation.find? tag = some operation) (isFold : operation.template.isFold = true)
      (length : (engine.array source).length = .ok n)
      (output : outcomeOf (Action.output out shape (engine.array source).element [source]) engine =
        .ok (target, given))
      (single : ((stateAfter (Action.output out shape (engine.array source).element [source])
        engine).array target).length = .ok 1)
      (made : outcomeOf (Action.foldDispatches operation (engine.array source).element target source
          (Reduction.passes (stateAfter (Action.output out shape (engine.array source).element
            [source]) engine).workgroupSize n))
        (stateAfter (Action.output out shape (engine.array source).element [source]) engine) =
          .ok (dispatches, between)) :
      Settles engine (.reduce tag (.array source described) out)
        ⟨dispatches, [], between, target, given⟩
        (stateAfter (Action.foldDispatches operation (engine.array source).element target source
          (Reduction.passes (stateAfter (Action.output out shape (engine.array source).element
            [source]) engine).workgroupSize n))
          (stateAfter (Action.output out shape (engine.array source).element [source]) engine))

variable {engine : Engine} {plan : CallPlan}

theorem settles_of_planLaunch {call : EngineCall} {operation : Operation} {operands : List Value}
    {targets : List ElementType} {result : ElementType} {out : Value}
    (hlaunches : call.Launches engine operation operands targets result out)
    (h : outcomeOf (planLaunch operation operands targets result out) engine = .ok plan) :
    call.Settles engine plan
      (stateAfter (planLaunch operation operands targets result out) engine) := by
  simp only [planLaunch, outcomeOf_bind_eq_ok, outcomeOf_get, stateAfter_get, Except.ok.injEq,
    exists_eq_left', outcomeOf_actionOfExcept, stateAfter_actionOfExcept, outcomeOf_pure,
    Prod.exists] at h
  obtain ⟨shape, hshape, target, given, houtput, pass, helpers, hmade, rfl⟩ := h
  rw [planLaunch, stateAfter_bind_of_ok (outcomeOf_get _), stateAfter_get,
    stateAfter_bind_of_ok ((outcomeOf_actionOfExcept _ _).trans hshape), stateAfter_actionOfExcept,
    stateAfter_bind_of_ok houtput, stateAfter_bind_of_ok hmade, stateAfter_pure]
  exact .launch hlaunches hshape houtput hmade

theorem settles_of_planReduce {tag : String} {argument out : Value}
    (h : outcomeOf (planReduce tag argument out) engine = .ok plan) :
    (EngineCall.reduce tag argument out).Settles engine plan
      (stateAfter (planReduce tag argument out) engine) := by
  unfold planReduce at h ⊢
  cases hfound : Operation.find? tag with
  | none =>
    rw [hfound] at h
    cases h
  | some operation =>
    rw [hfound] at h
    dsimp only at h ⊢
    by_cases hfold : (!operation.template.isFold) = true
    · rw [if_pos hfold] at h
      cases h
    rw [if_neg hfold] at h ⊢
    cases argument with
    | array source described =>
      dsimp only at h ⊢
      rw [stateAfter_bind_of_ok (outcomeOf_array source engine), stateAfter_array]
      rw [outcomeOf_bind, outcomeOf_array, stateAfter_array] at h
      dsimp only at h
      by_cases hstrides : (engine.array source).customStrides = true
      · rw [if_pos hstrides] at h
        cases h
      rw [if_neg hstrides] at h ⊢
      rw [outcomeOf_bind_eq_ok] at h
      obtain ⟨shape, hshape, h⟩ := h
      rw [stateAfter_bind_of_ok hshape, stateAfter_foldShape]
      rw [stateAfter_foldShape, outcomeOf_bind_eq_ok] at h
      obtain ⟨⟨target, given⟩, houtput, h⟩ := h
      rw [stateAfter_bind_of_ok houtput]
      simp only [outcomeOf_bind_eq_ok, Except.ok.injEq, exists_eq_left', outcomeOf_actionOfExcept,
        stateAfter_actionOfExcept, outcomeOf_array, stateAfter_array] at h
      obtain ⟨length, hlength, h⟩ := h
      rw [stateAfter_bind_of_ok (outcomeOf_array target _), stateAfter_array,
        stateAfter_bind_of_ok ((outcomeOf_actionOfExcept _ _).trans hlength),
        stateAfter_actionOfExcept]
      by_cases hone : length ≠ 1
      · rw [if_pos hone] at h
        cases h
      rw [if_neg hone] at h ⊢
      simp only [outcomeOf_bind_eq_ok, outcomeOf_get, stateAfter_get, Except.ok.injEq,
        exists_eq_left', outcomeOf_actionOfExcept, stateAfter_actionOfExcept, outcomeOf_pure,
        Prod.exists] at h
      obtain ⟨n, hn, dispatches, between, hmade, rfl⟩ := h
      rw [stateAfter_bind_of_ok ((outcomeOf_actionOfExcept _ _).trans hn),
        stateAfter_actionOfExcept, stateAfter_bind_of_ok (outcomeOf_get _), stateAfter_get,
        stateAfter_bind_of_ok hmade, stateAfter_pure]
      exact .fold hfound (by simpa using hfold) hn houtput (not_not.mp hone ▸ hlength) hmade
    | _ => cases h

/-- Every plan comes from the pass of a launch or from the passes of a reduction. -/
theorem settles_of_plan {call : EngineCall} (h : outcomeOf call.plan engine = .ok plan) :
    call.Settles engine plan (stateAfter call.plan engine) := by
  cases call with
  | elementwise tag operands out =>
    unfold EngineCall.plan planElementwise at h ⊢
    dsimp only at h ⊢
    cases hfound : Operation.find? tag with
    | none =>
      rw [hfound] at h
      cases h
    | some operation =>
      rw [hfound] at h
      dsimp only at h ⊢
      by_cases hfold : operation.template.isFold = true
      · rw [if_pos hfold] at h
        cases h
      by_cases hcount : operands.length ≠ operation.arity
      · rw [if_neg hfold, if_pos hcount] at h
        cases h
      rw [if_neg hfold, if_neg hcount] at h ⊢
      rw [outcomeOf_bind_eq_ok] at h
      obtain ⟨common, hcommon, h⟩ := h
      rw [stateAfter_bind_of_ok hcommon, stateAfter_commonType]
      rw [stateAfter_commonType] at h
      exact settles_of_planLaunch
        (.elementwise hfound (Bool.eq_false_iff.mpr hfold) (not_not.mp hcount) hcommon) h
  | choose condition yes no out =>
    cases condition with
    | array buffer described =>
      unfold EngineCall.plan planChoose at h ⊢
      dsimp only at h ⊢
      rw [outcomeOf_bind_eq_ok] at h
      obtain ⟨common, hcommon, h⟩ := h
      rw [stateAfter_bind_of_ok hcommon, stateAfter_commonType,
        stateAfter_bind_of_ok (outcomeOf_array buffer engine), stateAfter_array]
      rw [stateAfter_commonType, outcomeOf_bind, outcomeOf_array, stateAfter_array] at h
      exact settles_of_planLaunch (.choose hcommon) h
    | _ => cases h
  | reduce tag argument out => exact settles_of_planReduce h

end EngineCall

/-! ### What plans do -/

namespace Moves

variable {R : Engine → Engine → Prop} [Std.Refl R] [IsTrans Engine R]

section NewArray

variable (hnew : ∀ shape elementName strides, Moves R (Action.newArray shape elementName strides))
include hnew

/-- The plan of a reduction at most makes arrays. -/
theorem planReduce (tag : String) (argument out : Value) :
    Moves R (EngineCall.planReduce tag argument out) := by
  unfold EngineCall.planReduce
  split
  · exact .throw _
  · refine .guard _ ?_
    split
    · exact .bind (.array _) fun array ↦ .guard _ (.bind (.foldShape _) fun shape ↦
        .bind (.output hnew _ _ _ _) fun destination ↦ .bind (.array _) fun target ↦
          .bind (.ofExcept _) fun length ↦ .guard _ (.bind (.ofExcept _) fun n ↦
            .bind .get fun engine ↦ .bind (.foldDispatches hnew _ _ _ _ _) fun _ ↦
              .pure _))
    · exact .throw _

variable (hstrides : ∀ strides, Moves R (Action.stridesBuffer strides))
include hstrides

theorem planLaunch (operation : Operation) (operands : List Value) (targets : List ElementType)
    (result : ElementType) (out : Value) :
    Moves R (EngineCall.planLaunch operation operands targets result out) :=
  .bind .get fun _ ↦ .bind (.ofExcept _) fun _ ↦ .bind (.output hnew _ _ _ _) fun _ ↦
    .bind (.elementwisePass hstrides _ _ _ _ _ _ _) fun _ ↦ .pure _

/-- A plan at most makes arrays and stride buffers. -/
theorem plan (call : EngineCall) : Moves R call.plan := by
  cases call with
  | elementwise tag operands out =>
    unfold EngineCall.plan EngineCall.planElementwise
    dsimp only
    split
    · exact .throw _
    · exact .guard _ (.guard _ (.bind (.commonType _) fun _ ↦
        .planLaunch hnew hstrides _ _ _ _ _))
  | choose condition yes no out =>
    unfold EngineCall.plan EngineCall.planChoose
    dsimp only
    split
    · exact .bind (.commonType _) fun _ ↦ .bind (.array _) fun _ ↦
        .planLaunch hnew hstrides _ _ _ _ _
    · exact .throw _
  | reduce tag argument out => exact .planReduce hnew tag argument out

end NewArray

end Moves

end ComputeArray
