import ComputeArray.Proofs.Half.Handed
import ComputeArray.Proofs.Interface.Calls
import ComputeArray.Proofs.Lifetime.Run

/-!
# Runs that gate half precision

Whatever is asked of an engine and its generators, a source that is handed to the device declares
half precision exactly if it uses it, and mentions it only where the device has it, unless it is one
of the callers' own (`gated_of_handed`). Arrays of half precision are refused where it is not
available, so the arrays a call finds and makes are enough to gate the passes it submits.
-/

set_option autoImplicit false

namespace ComputeArray

open Kernel Engine

variable {half : Bool} {own : List String} {engine : Engine} {element : ElementType} {α : Type}

/-! ### New arrays -/

/-- The check passes where half precision is available. -/
theorem available_of_checkElement {done : PUnit}
    (h : outcomeOf (Action.checkElement element) engine = .ok done) (hhalf : element = .f16) :
    engine.hasHalf = true := by
  unfold Action.checkElement at h
  rw [outcomeOf_bind, outcomeOf_get, stateAfter_get] at h
  dsimp only at h
  split at h
  · cases h
  · next havailable => simpa [hhalf] using havailable

/-- An action that has passed the check. -/
theorem gating_checkElement {next : PUnit → Action α}
    (h : (element = .f16 → half = true) → ∀ done, Moves (Gating half own) (next done)) :
    Moves (Gating half own) (Action.checkElement element >>= next) := by
  intro engine hgates
  have hnext : Gating half own engine (stateAfter (Action.checkElement element >>= next) engine) :=
    Moves.bindAt (Moves.checkElement element engine) fun done hchecked ↦
      h (fun hhalf ↦ hgates.available.symm.trans (available_of_checkElement hchecked hhalf)) done _
  exact hnext hgates

theorem gating_allocate (helement : element = .f16 → half = true) (shape strides : List Nat)
    (customStrides : Bool) (count : Int) :
    Moves (Gating half own) (Action.allocate element shape strides customStrides count) := by
  refine .bind (.ofExcept _) fun size ↦ .bind .assertActive fun _ ↦
    .bind (Moves.gating fun _ ↦ .of_device (.of_push rfl rfl rfl rfl) rfl) fun buffer ↦
      .bind (.update fun engine hgates ↦ ⟨hgates.available, fun entry hmem hhalf ↦ ?_,
        hgates.sources⟩) fun _ ↦ .pure _
  rcases List.mem_append.mp hmem with hmem | hmem
  · exact hgates.arrays entry hmem hhalf
  · obtain rfl := List.mem_singleton.mp hmem
    exact helement hhalf

theorem gating_newArray (shape elementName strides : Value) :
    Moves (Gating half own) (Action.newArray shape elementName strides) := by
  refine .bind .assertActive fun _ ↦ .bind (.ofExcept _) fun element ↦
    gating_checkElement fun helement _ ↦ .bind (.ofExcept _) fun extents ↦ ?_
  dsimp only
  split
  · exact .bind (.ofExcept _) fun count ↦ gating_allocate helement _ _ _ _
  · exact .bind (.ofExcept _) fun given ↦ gating_allocate helement _ _ _ _

/-- An action that has made an array of a known type. -/
theorem gating_newContiguous {shape : List Int} {next : Nat → Action α}
    (h : (element = .f16 → half = true) → ∀ buffer, Moves (Gating half own) (next buffer)) :
    Moves (Gating half own) (Action.newContiguous element shape >>= next) := by
  intro engine hgates
  have hnext : Gating half own engine
      (stateAfter (Action.newContiguous element shape >>= next) engine) := by
    refine Moves.bindAt (gating_newArray _ _ _ engine) fun buffer hmade ↦
      h (fun hhalf ↦ ?_) buffer _
    simp only [Action.newContiguous, Action.newArray, outcomeOf_bind_eq_ok,
      outcomeOf_actionOfExcept, stateAfter_actionOfExcept, stateAfter_assertActive] at hmade
    obtain ⟨_, -, found, hfound, _, hchecked, -⟩ := hmade
    obtain rfl : found = element :=
      Except.ok.inj (hfound.symm.trans (by cases element <;> rfl))
    exact hgates.available.symm.trans (available_of_checkElement hchecked hhalf)
  exact hnext hgates

/-! ### Calls on arrays -/

/-- The passes of a reduction are made one after the other, in states that gate half precision. -/
theorem gated_foldDispatches {operation : Operation} (hsymbol : Halfless operation.symbol)
    {target source : Nat} {passes : List (Int × Int)} {dispatches : List Dispatch}
    {between : List Nat} (hgates : engine.Gates half own)
    (h : outcomeOf (Action.foldDispatches operation element target source passes) engine =
      .ok (dispatches, between)) : ∀ dispatch ∈ dispatches, Gated half dispatch.source := by
  induction passes generalizing source engine dispatches between with
  | nil =>
    cases h
    exact nofun
  | cons pass rest ih =>
    obtain ⟨n, lanes⟩ := pass
    have hmiddle := Moves.foldDestination gating_newArray element target lanes engine hgates
    obtain ⟨destination, later, between', -, hlater, rfl, -⟩ := foldDispatches_cons_eq_ok h
    intro dispatch hmem
    rcases List.mem_cons.mp hmem with rfl | hmem
    · exact gated_foldDispatch hmiddle.affords hsymbol _ _ _ _ _
    · exact ih hmiddle hlater dispatch hmem

/-- The passes a call has planned are gated. -/
theorem gated_of_plan {call : EngineCall} {plan : CallPlan} (hgates : engine.Gates half own)
    (h : outcomeOf call.plan engine = .ok plan) :
    ∀ dispatch ∈ plan.dispatches, Gated half dispatch.source := by
  have hsettles := EngineCall.settles_of_plan h
  generalize stateAfter call.plan engine = planned at hsettles
  cases hsettles with
  | @launch _ operation operands _ result out shape _ _ _ _ launches _ output made =>
    have hoffered := Moves.output gating_newArray out shape result (Value.arrays operands) engine
      hgates
    have hkeeps := Moves.output (.newArray keeps_allocate) out shape result (Value.arrays operands)
      engine
    obtain ⟨hcount, htypes⟩ := launches.counts
    rw [List.forall_mem_singleton]
    refine gated_of_elementwisePass hoffered.affords hcount htypes launches.halfless_symbol
      (fun hhalf ↦ ?_) made
    -- The array of half precision the call is typed by is still there when its pass is made.
    obtain ⟨buffer, hbuffer, helement⟩ := launches.half_of_mem hhalf
    refine ⟨buffer, hbuffer, ?_⟩
    rwa [array_of_lookup (hkeeps.arrays buffer _ (lookup_of_half helement))]
  | @fold _ source _ out operation shape _ _ _ _ _ found _ _ _ _ made =>
    have hoffered := Moves.output gating_newArray out shape (engine.array source).element [source]
      engine hgates
    exact gated_foldDispatches (Operation.halfless_symbol _ (mem_of_lookup found)) hoffered made

theorem gating_stridesBuffer (strides : List Int) :
    Moves (Gating half own) (Action.stridesBuffer strides) :=
  (abides_stridesBuffer strides).gating

theorem gating_release (buffer : Nat) :
    Moves (Gating half own) (modify (Engine.release buffer) : Action Unit) :=
  gating_modify fun engine ↦ abides_release buffer engine

/-- A call on arrays submits what it has planned. -/
theorem gating_engineCall (call : EngineCall) : Moves (Gating half own) call.action := by
  intro engine hgates
  rw [EngineCall.action_eq]
  have hcarried : Gating half own engine
      (stateAfter (call.plan >>= CallPlan.carryOut) engine) := by
    refine Moves.bindAt (Moves.plan gating_newArray gating_stridesBuffer call engine)
      fun plan hplan ↦ ?_
    have hsources := gated_of_plan hgates hplan
    exact Moves.bind (gating_submit (fun dispatch hmem ↦ .inr (hsources dispatch hmem)) _ _)
      (fun _ ↦ .bind (.releaseAll gating_release _) fun _ ↦ .settleOutput gating_release _ _) _
  exact hcarried hgates

theorem gating_elementwise (tag : String) (operands : List Value) (out : Value) :
    Moves (Gating half own) (Action.elementwise tag operands out) :=
  gating_engineCall (.elementwise tag operands out)

theorem gating_reduce (tag : String) (argument out : Value) :
    Moves (Gating half own) (Action.reduce tag argument out) :=
  gating_engineCall (.reduce tag argument out)

theorem gating_call (name : String) (arguments : List Value) (out : Option Value) :
    Moves (Gating half own) (Action.call name arguments out) :=
  .call gating_elementwise gating_reduce
    (fun condition yes no out ↦ gating_engineCall (.choose condition yes no out)) _ _ _

theorem gating_arithmetic (symbol : String) (left right : Value) :
    Moves (Gating half own) (Action.arithmetic symbol left right) :=
  .arithmetic gating_elementwise _ _ _

theorem gating_setValue (buffer : Nat) (value : Value) (index : List Value) :
    Moves (Gating half own) (Action.setValue buffer value index) :=
  (abides_setValue buffer value index).gating

theorem gating_setElements (buffer : Nat) (values : List Nat) :
    Moves (Gating half own) (Action.setElements buffer values) :=
  (abides_setElements buffer values).gating

theorem gating_rangeElements (element : ElementType) (start stop step : Value) :
    Moves (Gating half own) (Action.rangeElements element start stop step) :=
  .rangeElements gating_arithmetic _ _ _ _

/-! ### Generators -/

theorem gating_generator (state : Nat) : Moves (Gating half own) (Action.generator state) :=
  .bind .get fun _ ↦ .pure _

/-- The pass of a generator hands the source of its kernel over. -/
theorem gating_generatorPass {generator : Generator} {state : Nat} {kernel : Kernel}
    {outputs : List Nat} (h : Gated half kernel.source) :
    Moves (Gating half own) (Action.submit [generator.dispatch state kernel outputs] [] []) :=
  gating_submit (List.forall_mem_singleton.mpr (.inr h)) _ _

theorem gating_drawUniform (state : Nat) (elementName : Value) :
    Moves (Gating half own) (Action.drawUniform state elementName) := by
  refine .bind (gating_generator state) fun generator ↦ .bind (.ofExcept _) fun element ↦ ?_
  exact .guard _ (gating_newContiguous fun helement out ↦ .bind .get fun current ↦
    .bind (gating_generatorPass (Generator.gated_drawPass _ 1 helement)) fun _ ↦ .pure _)

theorem gating_skipDraw (state : Nat) : Moves (Gating half own) (Action.skipDraw state) :=
  .bind (gating_generator state) fun _ ↦ .bind .get fun _ ↦
    .bind (gating_generatorPass (Generator.gated_skipPass _)) fun _ ↦ .pure _

theorem gating_drawNormalPair (state : Nat) (element : ElementType) :
    Moves (Gating half own) (Action.drawNormalPair state element) :=
  .bind (gating_generator state) fun _ ↦ gating_newContiguous fun helement _ ↦
    gating_newContiguous fun _ _ ↦ .bind .get fun _ ↦
      .bind (gating_generatorPass (Generator.gated_pairPass _ helement)) fun _ ↦
        .bind (gating_modify fun _ ↦ .of_same rfl rfl) fun _ ↦ .pure _

theorem gating_drawNormal (state : Nat) (elementName : Value) :
    Moves (Gating half own) (Action.drawNormal state elementName) := by
  have htake : Moves (Gating half own) (Action.takeKept state) :=
    Moves.gating fun _ ↦ .of_same rfl rfl
  refine .bind (.ofExcept _) fun element ↦ .guard _ (.bind htake fun kept ↦ ?_)
  split
  · split
    · exact .pure _
    · exact .bind (gating_release _) fun _ ↦ gating_drawNormalPair _ _
  · exact gating_drawNormalPair _ _

theorem gating_deriveStreams (size state : Nat) :
    Moves (Gating half own) (Action.deriveStreams size state) := by
  refine .bind (gating_newArray _ _ _) fun cursor ↦ .bind (gating_setValue _ _ _) fun _ ↦
    .bind (.forM _ fun count _ ↦ .bind (gating_submit (fun dispatch hmem ↦ ?_) _ _)
      fun _ ↦ .pure _) fun _ ↦ gating_release _
  obtain rfl := List.eq_of_mem_replicate hmem
  exact .inr (Stream.gated_derive _)

theorem gating_newGenerator (size seed entropy : Value) :
    Moves (Gating half own) (Action.newGenerator size seed entropy) := by
  refine .bind (.ofExcept _) fun size ↦ .bind (.ofExcept _) fun seed ↦
    .bind (gating_newArray _ _ _) fun state ↦ .bind (.ofExcept _) fun _ ↦
      .bind (.ofExcept _) fun first ↦ .bind (gating_setElements _ _) fun _ ↦ ?_
  have hadd : Moves (Gating half own) (do
      modify (Engine.addGenerator state ⟨size.toNat, seed, none⟩)
      return state : Action Nat) :=
    .bind (gating_modify fun _ ↦ .of_same rfl rfl) fun _ ↦ .pure _
  dsimp only
  split
  · exact .bind (gating_deriveStreams _ _) fun _ ↦ hadd
  · exact hadd

/-! ### Steps -/

namespace Step

mutual

/-- The sources a step hands over for its caller, those of the steps it holds among them. -/
def sources : Step → List String
  | .createModule source => [source]
  | .createPipeline source _ _ => [source]
  | .submit dispatches _ => dispatches.map DispatchTerm.source
  | .load _ during => sourcesAll during
  | .repeated _ steps => sourcesAll steps
  | _ => []

def sourcesAll : List Step → List String
  | [] => []
  | step :: rest => step.sources ++ sourcesAll rest

end

theorem sources_subset_of_mem {step : Step} {steps : List Step} (h : step ∈ steps) :
    step.sources ⊆ sourcesAll steps := by
  induction steps with
  | nil => cases h
  | cons first rest ih =>
    unfold sourcesAll
    rcases List.mem_cons.mp h with rfl | hmem
    · exact List.subset_append_left _ _
    · exact List.Subset.trans (ih hmem) (List.subset_append_right _ _)

end Step

namespace Workspace

/-- The engine of a workspace keeps half precision gated. -/
def Gating (half : Bool) (own : List String) (before after : Workspace) : Prop :=
  Engine.Gating half own before.engine after.engine

instance : Std.Refl (Gating half own) := ⟨fun _ ↦ id⟩

instance : IsTrans Workspace (Gating half own) := ⟨fun _ _ _ hfirst hlast ↦ hlast ∘ hfirst⟩

theorem gating_act {action : Action α} (h : Moves (Engine.Gating half own) action) :
    Moves (Gating half own) (Session.act action) :=
  fun workspace ↦ h workspace.engine

theorem gating_perform {action : Action Unit} (h : Moves (Engine.Gating half own) action) :
    Moves (Gating half own) (Session.perform action) :=
  .bind (gating_act h) fun _ ↦ .pure _

theorem gating_bindResult (name : Option String) (handle : Handle) :
    Moves (Gating half own) (Session.bindResult name handle) := by
  cases name with
  | none => exact .pure _
  | some name => exact fun _ ↦ id

theorem gating_collect (workspace : Workspace) : Gating half own workspace workspace.collect :=
  (abides_collect _ _ workspace.engine).gating

end Workspace

open Workspace (gating_act gating_perform)

theorem gating_make (round : Option Nat) (making : Making) :
    Moves (Workspace.Gating half own) (Session.make round making) := by
  cases making with
  | layout shape elementName strides =>
    exact .bind (moves_resolve _) fun _ ↦ .bind (moves_resolve _) fun _ ↦
      .bind (moves_resolve _) fun _ ↦ gating_act (gating_newArray _ _ _)
  | full value shape elementName =>
    exact .bind (moves_resolve _) fun _ ↦ .bind (moves_resolve _) fun _ ↦
      .bind (moves_resolve _) fun _ ↦ gating_act (.full gating_newArray gating_setValue _ _ _)
  | range arguments named =>
    exact .bind (moves_resolveArguments _ _) fun _ ↦ .bind (moves_resolveNamed _) fun _ ↦
      gating_act (.range gating_newArray gating_setElements gating_rangeElements _ _)
  | table value =>
    exact .bind (moves_resolve _) fun _ ↦ gating_act (.ofTable gating_newArray gating_setElements _)
  | call name operands =>
    exact .bind (moves_resolveOperands _ _) fun _ ↦ gating_act
      (.callByName gating_newArray gating_setValue gating_setElements gating_rangeElements
        gating_call _ _ _)
  | elementwise tag operands =>
    exact .bind (moves_resolveOperands _ _) fun _ ↦ gating_act (gating_elementwise _ _ _)
  | reduce tag operands =>
    exact .bind (moves_resolveOperands _ _) fun _ ↦ gating_act (.callReduce gating_reduce _ _ _)
  | arithmetic symbol left right =>
    exact .bind (moves_resolve _) fun _ ↦ .bind (moves_resolve _) fun _ ↦
      gating_act (gating_arithmetic _ _ _)
  | named name => exact moves_array name
  | reshaped name extents =>
    exact .bind (moves_array _) fun buffer ↦ .bind (moves_resolveArguments _ _) fun _ ↦
      .bind (gating_act (abides_reshape buffer _).gating) fun _ ↦ .pure _
  | uniform generator elementName =>
    exact .bind (moves_generator _) fun _ ↦ .bind (moves_resolve _) fun _ ↦
      gating_act (gating_drawUniform _ _)
  | normal generator elementName =>
    exact .bind (moves_generator _) fun _ ↦ .bind (moves_resolve _) fun _ ↦
      gating_act (gating_drawNormal _ _)

theorem source_of_resolveDispatch {term : DispatchTerm} {workspace : Workspace}
    {dispatch : Dispatch}
    (h : outcomeOf (Session.resolveDispatch term) workspace = .ok dispatch) :
    dispatch.source = term.source := by
  simp only [Session.resolveDispatch, outcomeOf_bind_eq_ok, outcomeOf_pure, Except.ok.injEq] at h
  obtain ⟨bindings, -, constants, -, rfl⟩ := h
  rfl

theorem gating_modesFrom (modes : Value) : Moves (Gating half own) (Action.modesFrom modes) :=
  .bind .assertActive fun _ ↦ .ofExcept _

/-- A step that holds no others, and hands no more over for its caller than it may. -/
theorem gating_runSimple (round : Option Nat) {step : Step} (h : step.sources ⊆ own) :
    Moves (Workspace.Gating half own) (Session.runSimple round step) := by
  cases step with
  | make making name =>
    exact .bind (gating_make round making) fun _ ↦ .bind (Workspace.gating_bindResult _ _) fun _ ↦
      moves_describeArray _
  | makeGenerator size seed entropy name =>
    exact .bind (moves_resolve _) fun _ ↦ .bind (moves_resolve _) fun _ ↦
      .bind (moves_resolve _) fun _ ↦ .bind (gating_act (gating_newGenerator _ _ _)) fun _ ↦
        .bind (Workspace.gating_bindResult _ _) fun _ ↦ .bind .get fun _ ↦ .pure _
  | drop name => exact .bind (moves_handle _) fun _ ↦ .bind (fun _ ↦ id) fun _ ↦ .pure _
  | describe name => exact .bind (moves_array _) fun _ ↦ moves_describeArray _
  | hostElements name => exact .bind .get fun _ ↦ .bind (moves_array _) fun _ ↦ .pure _
  | deviceBytes name => exact .bind (moves_array _) fun _ ↦ .bind .get fun _ ↦ .pure _
  | poke name start bytes =>
    exact .bind (moves_array _) fun _ ↦ gating_perform
      (abides_changeDevice fun device ↦ .setBytes _ _ device).gating
  | set name value index =>
    exact .bind (moves_array _) fun _ ↦ .bind (moves_resolve _) fun _ ↦
      .bind (moves_resolveAll _) fun _ ↦ gating_perform (gating_setValue _ _ _)
  | element name index =>
    exact .bind (moves_array _) fun buffer ↦ .bind (moves_resolveAll _) fun _ ↦
      .bind (gating_act (.bind (abides_load buffer).gating fun _ ↦ .bind (.array _) fun _ ↦
        .ofExcept _)) fun _ ↦ .pure _
  | hostElement name index =>
    exact .bind (moves_array _) fun _ ↦ .bind (moves_resolveAll _) fun _ ↦
      .bind (gating_act (.bind (.array _) fun _ ↦ .ofExcept _)) fun _ ↦ .pure _
  | elements name =>
    exact .bind (moves_array _) fun buffer ↦ .bind (gating_act
      (.bind (abides_loadBlocking buffer).gating fun _ ↦ .bind (.array _) fun _ ↦ .ofExcept _))
        fun _ ↦ .bind .get fun _ ↦ .pure _
  | send name =>
    exact .bind (moves_array _) fun buffer ↦ gating_perform (abides_send buffer).gating
  | loadBlocking name =>
    exact .bind (moves_array _) fun buffer ↦ gating_perform (abides_loadBlocking buffer).gating
  | markDeviceDirty name =>
    exact .bind (moves_array _) fun buffer ↦ gating_perform (abides_markDeviceDirty buffer).gating
  | release name =>
    exact .bind (moves_array _) fun _ ↦ gating_perform (gating_release _)
  | load names during => exact .pure _
  | skip name => exact .bind (moves_generator _) fun _ ↦ gating_perform (gating_skipDraw _)
  | describeGenerator name =>
    exact .bind (moves_generator _) fun _ ↦ moves_describeGenerator _
  | grid lanes => exact .bind (gating_act (.grid _)) fun _ ↦ .pure _
  | synchronize blocking => exact gating_perform (abides_synchronize blocking).gating
  | retire serial => exact gating_perform (abides_retiring serial).gating
  | destroy => exact gating_perform abides_destroy.gating
  | markLost arguments =>
    exact .bind (moves_resolveArguments _ _) fun values ↦
      gating_perform (abides_markLosing values).gating
  | assertActive => exact gating_perform .assertActive
  | describeEngine => exact .bind .get fun _ ↦ .pure _
  | describeCaches => exact .bind .get fun _ ↦ .pure _
  | setCompiler compiler =>
    exact gating_perform (.gating fun _ ↦ .of_device ⟨rfl, fun _ ↦ id⟩ rfl)
  | createLayout modes =>
    exact .bind (moves_resolve _) fun _ ↦ .bind (gating_act
      (.bind (gating_modesFrom _) fun modes ↦ (abides_createLayout modes).gating)) fun _ ↦ .pure _
  | createModule source =>
    exact .bind (gating_act (gating_createModule (.inl (h List.mem_cons_self)))) fun _ ↦ .pure _
  | createPipeline source modes constants =>
    exact .bind (moves_resolve _) fun _ ↦ .bind (moves_resolveNamed _) fun _ ↦
      .bind (gating_act (.bind (gating_modesFrom _) fun _ ↦
        .bind (gating_createPipeline (.inl (h List.mem_cons_self)) _ _) fun _ ↦ .pure _))
          fun _ ↦ .pure _
  | submit dispatches copies =>
    refine .bindOk (.mapM _ fun _ _ ↦ moves_resolveDispatch _) fun resolved start hresolved ↦
      .bind (.mapM _ fun copy _ ↦ ?_) fun copies ↦ .bind (gating_act (gating_submit ?_ _ _))
        fun _ ↦ .pure _
    · exact .bind (moves_array _) fun _ ↦ .bind (moves_array _) fun _ ↦ .pure _
    · intro dispatch hmem
      obtain ⟨term, hterm, _, hdispatch⟩ := exists_of_outcomeOf_mapM hresolved dispatch hmem
      rw [source_of_resolveDispatch hdispatch]
      exact .inl (h (List.mem_map_of_mem hterm))
  | repeated count steps => exact .pure _

/-- Taking calls off the trace hands nothing over. -/
theorem gating_takeCalls (count : Nat) :
    Moves (Workspace.Gating half own) (Session.takeCalls count) := by
  intro workspace
  refine Abides.gating (.of_device ⟨rfl, fun source h ↦ h.imp_right ?_⟩ rfl)
  rintro ⟨call, hmem, hsource⟩
  have htaken : call ∈ workspace.engine.device.calls.take count := hmem
  rw [Array.take_eq_extract, ← Array.mem_toList_iff, Array.toList_extract] at htaken
  exact ⟨call, Array.mem_toList_iff.mp (List.mem_of_mem_take htaken), hsource⟩

/-- Every step, whatever steps it holds. -/
theorem gating_run (round : Option Nat) {step : Step} (h : step.sources ⊆ own) :
    Moves (Workspace.Gating half own) (Session.run round step) := by
  refine moves_run_of (P := fun step ↦ step.sources ⊆ own)
    (fun buffer ↦ gating_act (abides_requestLoad buffer).gating)
    (fun buffer ↦ gating_act (abides_startLoad buffer).gating)
    (fun buffer ↦ gating_act (abides_finishLoad buffer).gating) Workspace.gating_collect
    (fun names during hduring step hmem ↦ ?during) (fun count steps hsteps step hmem ↦ ?repeated)
    (fun round step hstep _ ↦ gating_runSimple round hstep) (fun rounds hrounds ↦ ?rounds) round h
  case during => exact List.Subset.trans (Step.sources_subset_of_mem hmem) hduring
  case repeated => exact List.Subset.trans (Step.sources_subset_of_mem hmem) hsteps
  case rounds =>
    exact .bind (.bind .get fun _ ↦ .pure _) fun start ↦ .bind hrounds fun _ ↦
      .bind (gating_takeCalls start) fun _ ↦ .pure _

/-! ### Courses -/

/-- The sources the caller of a step hands over with it. -/
def Happening.sources : Happening → List String
  | .step taken => taken.sources
  | _ => []

namespace Course

theorem gating_carry {m : Session α} (h : Moves (Workspace.Gating half own) m) (course : Course) :
    Workspace.Gating half own course.workspace (course.carry m).workspace :=
  trans_of (Workspace.Gating half own) (h course.workspace) (Workspace.gating_collect _)

theorem gating_after (course : Course) {happening : Happening} (h : happening.sources ⊆ own) :
    Workspace.Gating half own course.workspace (course.after happening).workspace := by
  cases happening with
  | step step => exact gating_carry (gating_run none h) course
  | requestLoad name =>
    exact gating_carry (.bind (moves_array name) fun buffer ↦
      gating_act (abides_requestLoad buffer).gating) course
  | startLoad buffer => exact gating_carry (gating_act (abides_startLoad buffer).gating) course
  | finishLoad buffer => exact gating_carry (gating_act (abides_finishLoad buffer).gating) course
  | beginSynchronize =>
    have hbegin : Moves Abides Action.beginSynchronize :=
      .bind .assertActive fun _ ↦ .bind .get fun _ ↦
        .bind (abides_changeDevice (.record rfl)) fun _ ↦ .pure _
    have hact : Moves (Workspace.Gating half own) (Session.act Action.beginSynchronize) :=
      gating_act hbegin.gating
    have hbegun := gating_carry hact course
    unfold Course.after
    dsimp only
    split
    · exact hbegun
    · exact hbegun
  | finishSynchronize index =>
    unfold Course.after
    dsimp only
    split
    · next serial made hwait =>
      exact gating_carry (gating_act (abides_retiring serial).gating) { course with
        history := .completed made :: course.history
        waits := course.waits.eraseIdx index }
    · exact refl_of (Workspace.Gating half own) course.workspace

theorem gating_afterAll (course : Course) {happenings : List Happening}
    (h : ∀ happening ∈ happenings, happening.sources ⊆ own) :
    Workspace.Gating half own course.workspace (course.afterAll happenings).workspace := by
  induction happenings generalizing course with
  | nil => exact refl_of (Workspace.Gating half own) course.workspace
  | cons happening rest ih =>
    exact trans_of (Workspace.Gating half own)
      (course.gating_after (h happening List.mem_cons_self))
      (ih _ fun later hmem ↦ h later (List.mem_cons_of_mem happening hmem))

end Course

/-- Whatever happens to an engine and its generators, on whatever device: a source the device has
been handed declares half precision exactly if it uses it, and mentions it only if the device has
the feature, unless a caller has handed it over. -/
theorem gated_of_handed (computing : Computing) (features : List String) (limits : Limits)
    (destroyFailure : Option String) (options : Options) (happenings : List Happening)
    {source : String}
    (hhanded : ((Course.start (.createWith computing features limits destroyFailure)
      options).afterAll happenings).workspace.engine.device.Handed source)
    (hown : source ∉ happenings.flatMap Happening.sources) :
    Gated (features.contains Device.halfFeature) source := by
  set start := Course.start (.createWith computing features limits destroyFailure) options
  have hstart : start.workspace.engine.Gates (features.contains Device.halfFeature)
      (happenings.flatMap Happening.sources) := by
    refine ⟨rfl, nofun, ?_⟩
    rintro source (hmodule | ⟨call, hmem, -⟩)
    · exact absurd hmodule (Array.not_mem_empty source)
    · exact absurd hmem (Array.not_mem_empty call)
  have hgates := start.gating_afterAll
    (fun happening hmem source hsource ↦ List.mem_flatMap.mpr ⟨happening, hmem, hsource⟩) hstart
  exact (hgates.sources source hhanded).resolve_left hown

/-- One is added to half precision floats and to integers. -/
def sums : List Happening :=
  [.step (.make (.layout (.value (.int 4)) (.value (.text "f16")) (.value .none)) (some "x")),
    .step (.make (.layout (.value (.int 4)) (.value (.text "i32")) (.value .none)) (some "n")),
    .step (.make (.elementwise "add" ⟨[.reference "x", .value (.int 1)], none⟩) (some "y")),
    .step (.make (.elementwise "add" ⟨[.reference "n", .value (.int 1)], none⟩) (some "m"))]

/-- The sources of the modules made for the sums on a device with half precision. -/
def sumSource (number : Nat) : String :=
  (numbered ((Course.start (.createWith (fun _ _ held ↦ held) [Device.halfFeature]
    ⟨256, 256, 65535⟩ none) ⟨.highPerformance, .bool true, 64, .none⟩).afterAll
      sums).workspace.engine.device.modules number).getD ""

/-- The sum of floats declares half precision, that of integers does not. -/
theorem gated_of_handed_sums :
    directive.isPrefixOf (sumSource 1) = true ∧ directive.isPrefixOf (sumSource 2) = false ∧
      Gated true (sumSource 1) ∧ Gated true (sumSource 2) := by
  refine ⟨by decide +kernel, by decide +kernel, ?_, ?_⟩
  · exact gated_of_handed (fun _ _ held ↦ held) [Device.halfFeature] ⟨256, 256, 65535⟩ none
      ⟨.highPerformance, .bool true, 64, .none⟩ sums (.inl (by decide +kernel)) List.not_mem_nil
  · exact gated_of_handed (fun _ _ held ↦ held) [Device.halfFeature] ⟨256, 256, 65535⟩ none
      ⟨.highPerformance, .bool true, 64, .none⟩ sums (.inl (by decide +kernel)) List.not_mem_nil

end ComputeArray
