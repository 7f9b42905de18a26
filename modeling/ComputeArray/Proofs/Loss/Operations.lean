import ComputeArray.Engine.Construct
import ComputeArray.Engine.Generator
import ComputeArray.Proofs.Loss.Refusal

/-!
# Operations without their device

Everything that can be asked of an engine that has lost its device, with the point at which it is
refused. What needs a new array, a submission, a compilation or a wait checks for the loss before it
does anything; a transfer does so unless the host copy is up to date.
-/

set_option autoImplicit false

namespace ComputeArray

open Engine Carrier

variable {α : Type} {buffer : Nat}

/-! ### What is refused at once -/

theorem refuses_checked (f : PUnit → Action α) : Refuses (Action.assertActive >>= f) :=
  fun _ _ h ↦ refused_of_lost h.lost f

theorem refuses_assertActive : Refuses Action.assertActive := by
  intro notice engine h
  have hchecked := refuses_checked (fun _ ↦ (pure ⟨⟩ : Action PUnit)) notice engine h
  rwa [bind_pure_unit] at hchecked

theorem refuses_newArray (shape elementName strides : Value) :
    Refuses (Action.newArray shape elementName strides) :=
  refuses_checked _

theorem refuses_newContiguous (element : ElementType) (shape : List Int) :
    Refuses (Action.newContiguous element shape) :=
  refuses_checked _

theorem refuses_submit (dispatches : List Dispatch) (helpers : List Nat)
    (copies : List (Nat × Nat)) : Refuses (Action.submit dispatches helpers copies) :=
  refuses_checked _

theorem refuses_copyToStaging (buffer : Nat) : Refuses (Action.copyToStaging buffer) :=
  refuses_checked _

theorem refuses_synchronize (blocking : Bool) : Refuses (Action.synchronize blocking) :=
  refuses_checked _

theorem refuses_createModule (source : String) : Refuses (Action.createModule source) :=
  refuses_checked _

theorem refuses_modesFrom (modes : Value) : Refuses (Action.modesFrom modes) :=
  refuses_checked _

theorem refuses_createLayoutFor (modes : Value) : Refuses (Action.createLayoutFor modes) :=
  (refuses_modesFrom modes).bind _

theorem refuses_createPipelineFor (source : String) (modes : Value)
    (constants : List (String × Value)) :
    Refuses (Action.createPipelineFor source modes constants) :=
  (refuses_modesFrom modes).bind _

/-! ### What only looks at the engine -/

theorem idle_array (buffer : Nat) : Idle (Action.array buffer) :=
  .silent (fun _ ↦ rfl) fun _ _ _ ↦ rfl

theorem idle_generator (state : Nat) : Idle (Action.generator state) :=
  .silent (fun _ ↦ rfl) fun _ _ _ ↦ rfl

theorem idle_grid (lanes : Int) : Idle (Action.grid lanes) := by
  refine .get (fun engine ↦ ?_) fun _ _ _ ↦ rfl
  dsimp only
  exact .guard _ (.pure _)

theorem idle_commonType (operands : List Value) : Idle (Action.commonType operands) := by
  refine .get (fun engine ↦ ?_) fun _ _ _ ↦ rfl
  dsimp only
  refine .guard _ (.bind (.ofExcept _) fun common ↦ .bind (.mapM _ fun value _ ↦ ?_) fun types ↦
    .ofExcept _)
  cases value with
  | array buffer described => exact .pure _
  | _ => exact .ofExcept _

theorem idle_foldShape (out : Value) : Idle (Action.foldShape out) := by
  unfold Action.foldShape
  split
  · exact .pure _
  · exact .bind (idle_array _) fun _ ↦ .pure _
  · exact .throw _

/-! ### Transfers -/

theorem idle_send (buffer : Nat) : Idle (Action.send buffer) := by
  refine .bind (idle_array buffer) fun array ↦ ?_
  split
  · exact .pure _
  · exact (refuses_checked _).barred

theorem idle_loadBlocking (buffer : Nat) : Idle (Action.loadBlocking buffer) := by
  refine .bind (idle_array buffer) fun array ↦ ?_
  split
  · exact .pure _
  · exact ((refuses_copyToStaging buffer).bind _).barred

/-- How far a load has come is no part of an array that callers can see. -/
theorem idle_setLoading {loading : Loading} (h : ∀ readBack, loading ≠ .copying readBack) :
    Idle (Action.setLoading buffer loading) := by
  intro notice (engine : Engine) (hstranded : engine.Stranded notice)
  have hset : Terminal engine (engine.setArray buffer { engine.array buffer with loading }) :=
    terminal_setArray fun _ ↦ h
  obtain ⟨hafter, hcalls, -⟩ := hset notice hstranded
  have huntouched : Untouched engine
      (engine.setArray buffer { engine.array buffer with loading }) := untouched_setArray rfl
  exact .carriedOut ⟨⟩ rfl hafter hcalls huntouched fun pending log ↦ ⟨rfl, pending, log, rfl⟩

theorem idle_requestLoad (buffer : Nat) : Idle (Action.requestLoad buffer) := by
  refine .bind (idle_array buffer) fun array ↦ ?_
  split
  · exact idle_setLoading nofun
  · exact .pure _

theorem idle_startLoad (buffer : Nat) : Idle (Action.startLoad buffer) := by
  refine .bind (idle_array buffer) fun array ↦ ?_
  split
  · exact .bind (idle_setLoading nofun) fun _ ↦ ((refuses_copyToStaging buffer).bind _).barred
  · exact .pure _

theorem idle_finishLoad (buffer : Nat) : Idle (Action.finishLoad buffer) := by
  intro notice (engine : Engine) (h : engine.Stranded notice)
  obtain ⟨hstate, houtcome⟩ := finishLoad_of_not_copying (h.idle buffer)
  refine .carriedOut ⟨⟩ houtcome (by rwa [hstate]) (by rw [hstate])
    (by rw [hstate]; exact refl_of Untouched _) fun pending log ↦ ?_
  have hactive : ∀ readBack,
      ((engine.revived pending log).array buffer).loading ≠ .copying readBack := h.idle buffer
  rw [hstate]
  obtain ⟨hstate', houtcome'⟩ := finishLoad_of_not_copying hactive
  exact ⟨houtcome', pending, log, hstate'⟩

theorem idle_load (buffer : Nat) : Idle (Action.load buffer) :=
  .bind (idle_requestLoad buffer) fun _ ↦ .bind (idle_startLoad buffer) fun _ ↦
    idle_finishLoad buffer

/-! ### Access -/

theorem barred_updateArray {update : ArrayState → Except Failure ArrayState}
    (hloading : ∀ array updated, update array = .ok updated → updated.loading = array.loading) :
    Barred Changed (Action.updateArray buffer update) := by
  intro notice (engine : Engine) (h : engine.Stranded notice)
  refine (idle_array buffer notice engine h).bind fun array harray _ ↦ ?_
  obtain rfl : engine.array buffer = array := Except.ok.inj harray
  refine (Barred.ofExcept (update _) notice engine h).bind fun updated hupdated _ ↦ ?_
  rw [outcomeOf_ofExcept] at hupdated
  rw [stateAfter_ofExcept]
  have hset : Terminal engine (engine.setArray buffer updated) :=
    terminal_setArray fun hidle ↦ by rwa [hloading _ _ hupdated]
  obtain ⟨hafter, hcalls, -⟩ := hset notice h
  exact .carriedOut ⟨⟩ rfl hafter hcalls trivial fun pending log ↦ ⟨rfl, pending, log, rfl⟩

theorem barred_loadThenUpdate {update : ArrayState → Except Failure ArrayState}
    (hstores : ∀ array : ArrayState, array.StoresBy update) :
    Barred Changed (loadThenUpdate buffer update) := by
  have hupdate : Barred Changed (Action.updateArray buffer update) := by
    refine barred_updateArray fun array updated hupdated ↦ ?_
    obtain ⟨storage, -, rfl⟩ := (hstores array).eq_ok hupdated
    rfl
  refine .bind (idle_array buffer) fun array ↦ ?_
  split
  · exact .bind (idle_loadBlocking buffer) fun _ ↦ hupdate
  · exact hupdate

theorem barred_setValue (buffer : Nat) (value : Value) (index : List Value) :
    Barred Changed (Action.setValue buffer value index) :=
  barred_loadThenUpdate fun array ↦ array.storesBy_setValue index value

theorem barred_reshape (buffer : Nat) (extents : List Value) :
    Barred Changed (Action.reshape buffer extents) := by
  refine barred_updateArray fun array updated hupdated ↦ ?_
  obtain ⟨shape, strides, -, rfl⟩ := ArrayState.reshape_eq_ok hupdated
  rfl

theorem idle_hostElement (buffer : Nat) (index : List Value) :
    Idle (Action.hostElement buffer index) :=
  .bind (idle_array buffer) fun _ ↦ .ofExcept _

theorem idle_getElement (buffer : Nat) (index : List Value) :
    Idle (Action.getElement buffer index) :=
  .bind (idle_load buffer) fun _ ↦ idle_hostElement buffer index

theorem idle_readElements (buffer : Nat) : Idle (Action.readElements buffer) :=
  .bind (idle_loadBlocking buffer) fun _ ↦ .bind (idle_array buffer) fun _ ↦ .ofExcept _

theorem idle_release (buffer : Nat) : Idle (modify (Engine.release buffer) : Action Unit) := by
  intro notice (engine : Engine) (h : engine.Stranded notice)
  obtain ⟨hafter, hcalls, -⟩ := terminal_release buffer engine notice h
  have huntouched : Untouched engine
      (engine.setArray buffer { engine.array buffer with released := true }) :=
    untouched_setArray rfl
  have hreleased : Untouched engine (engine.release buffer) := by
    obtain ⟨-, hsame⟩ | ⟨-, _, hmarked, -⟩ := release_cases buffer engine
    · rw [hsame]
      exact refl_of Untouched engine
    · rw [hmarked]
      exact ⟨huntouched.buffers, huntouched.arrays⟩
  refine .carriedOut ⟨⟩ rfl hafter hcalls hreleased fun pending log ↦ ⟨rfl, ?_⟩
  -- The active engine puts the buffer into its queue.
  show ∃ pending' log', (engine.revived pending log).release buffer =
    (engine.release buffer).revived pending' log'
  have hsame : (engine.revived pending log).array buffer = engine.array buffer := rfl
  obtain ⟨hdone, hlost⟩ | ⟨hdone, _, hlost, -⟩ := release_cases buffer engine <;>
    obtain ⟨hdone', hactive⟩ | ⟨hdone', pending', hactive, -⟩ :=
      release_cases buffer (engine.revived pending log) <;>
    rw [hsame, hdone] at hdone'
  · rw [hlost, hactive]
    exact ⟨pending, log, rfl⟩
  · cases hdone'
  · cases hdone'
  · rw [hlost, hactive]
    exact ⟨pending', log, rfl⟩

/-! ### Operations -/

theorem idle_output (out : Value) (shape : List Int) (element : ElementType) (inputs : List Nat) :
    Idle (Action.output out shape element inputs) := by
  unfold Action.output
  split
  · exact ((refuses_newContiguous _ _).bind _).barred
  · refine .bind (idle_array _) fun array ↦ ?_
    dsimp only
    refine .guard _ (.guard _ ?_)
    split
    · exact ((refuses_newContiguous _ _).bind _).barred
    · exact .pure _
  · exact .throw _

theorem idle_stridesBuffer (strides : List Int) : Idle (Action.stridesBuffer strides) :=
  .bind (.ofExcept _) fun _ ↦ (refuses_checked _).barred

theorem idle_stridesBuffersIf (strided : Bool) (names : List String) (operands : List Value)
    (shape : List Int) : Idle (Action.stridesBuffersIf strided names operands shape) := by
  unfold Action.stridesBuffersIf
  split
  · refine .get (fun engine ↦ .bind (.filterMapM _ fun named _ ↦ ?_) fun inputs ↦
      .bind (idle_stridesBuffer _) fun _ ↦ .pure _) fun _ _ _ ↦ rfl
    obtain ⟨name, value⟩ := named
    cases value with
    | array buffer described =>
      exact .bind (.ofExcept _) fun strides ↦ .bind (idle_stridesBuffer _) fun _ ↦ .pure _
    | _ => exact .pure _
  · exact .pure _

theorem idle_elementwisePass (operation : Operation) (operands : List Value)
    (targets : List ElementType) (result : ElementType) (shape : List Int) (strided : Bool)
    (target : Nat) :
    Idle (Action.elementwisePass operation operands targets result shape strided target) :=
  .get (fun _ ↦ .bind (.ofExcept _) fun _ ↦ .bind (idle_array target) fun _ ↦
    .bind (idle_stridesBuffersIf _ _ _ _) fun _ ↦ .bind (.ofExcept _) fun _ ↦
      .bind (.ofExcept _) fun _ ↦ .pure _) fun _ _ _ ↦ rfl

theorem idle_launch (operation : Operation) (operands : List Value)
    (targets : List ElementType) (result : ElementType) (out : Value) :
    Idle (Action.launch operation operands targets result out) :=
  .get (fun _ ↦ .bind (.ofExcept _) fun _ ↦ .bind (idle_output _ _ _ _) fun _ ↦
    .bind (idle_elementwisePass _ _ _ _ _ _ _) fun _ ↦
      ((refuses_submit _ _ _).bind _).barred) fun _ _ _ ↦ rfl

theorem idle_elementwise (tag : String) (operands : List Value) (out : Value) :
    Idle (Action.elementwise tag operands out) := by
  unfold Action.elementwise
  split
  · exact .throw _
  · dsimp only
    exact .guard _ (.guard _ (.bind (idle_commonType _) fun _ ↦ idle_launch _ _ _ _ _))

theorem idle_choose (condition yes no out : Value) :
    Idle (Action.choose condition yes no out) := by
  unfold Action.choose
  split
  · exact .bind (idle_commonType _) fun _ ↦ .bind (idle_array _) fun _ ↦ idle_launch _ _ _ _ _
  · exact .throw _

theorem idle_foldDispatches (operation : Operation) (element : ElementType) (target : Nat)
    (passes : List (Int × Int)) (source : Nat) :
    Idle (Action.foldDispatches operation element target source passes) := by
  have hdestination (lanes : Int) : Idle (Action.foldDestination element target lanes) := by
    unfold Action.foldDestination
    split
    · exact .pure _
    · exact (refuses_newContiguous _ _).barred
  induction passes generalizing source with
  | nil => exact .pure _
  | cons pass rest ih =>
    obtain ⟨n, lanes⟩ := pass
    exact .bind (hdestination lanes) fun destination ↦ .get (fun engine ↦ .bind (ih _) fun _ ↦
      .pure _) fun _ _ _ ↦ rfl

theorem idle_reduce (tag : String) (argument out : Value) :
    Idle (Action.reduce tag argument out) := by
  unfold Action.reduce
  split
  · exact .throw _
  · dsimp only
    refine .guard _ ?_
    split
    · refine .bind (idle_array _) fun array ↦ .guard _ (.bind (idle_foldShape _) fun shape ↦
        .bind (idle_output _ _ _ _) fun destination ↦ .bind (idle_array _) fun targetArray ↦
          .bind (.ofExcept _) fun length ↦ ?_)
      refine .guard _ (.bind (.ofExcept _) fun n ↦ .get (fun engine ↦
        .bind (idle_foldDispatches _ _ _ _ _) fun made ↦
          ((refuses_submit _ _ _).bind _).barred) fun _ _ _ ↦ rfl)
    · exact .throw _

theorem idle_call (name : String) (arguments : List Value) (out : Option Value) :
    Idle (Action.call name arguments out) := by
  unfold Action.call
  split
  · exact .throw _
  · refine .bind (.ofExcept _) fun values ↦ ?_
    dsimp only
    split
    · exact idle_choose _ _ _ _
    · split
      · exact idle_reduce _ _ _
      · exact idle_elementwise _ _ _

theorem idle_callReduce (tag : String) (arguments : List Value) (out : Option Value) :
    Idle (Action.callReduce tag arguments out) :=
  .bind (.ofExcept _) fun _ ↦ idle_reduce _ _ _

theorem idle_arithmetic (symbol : String) (left right : Value) :
    Idle (Action.arithmetic symbol left right) := by
  unfold Action.arithmetic
  split
  · exact idle_elementwise _ _ _
  · exact .throw _

/-! ### Constructors -/

theorem idle_full (value shape elementName : Value) :
    Idle (Action.full value shape elementName) :=
  ((refuses_newArray _ _ _).bind _).barred

theorem idle_rangeElements (element : ElementType) (start stop step : Value) :
    Idle (Action.rangeElements element start stop step) := by
  have hcomputed {action : Action Nat} (h : Idle action) :
      Idle (tryCatch action fun failure ↦ throw (Range.failureOf failure)) :=
    h.rethrow fun _ ↦ rfl
  unfold Action.rangeElements
  dsimp only
  split
  · exact .bind (hcomputed (idle_arithmetic _ _ _)) fun _ ↦
      .bind (.bind (idle_array _) fun _ ↦ .pure _) fun _ ↦
        .bind (hcomputed (idle_arithmetic _ _ _)) fun _ ↦ .throw _
  · split
    · exact .bind (.ofExcept _) fun _ ↦
        .bind (hcomputed (idle_arithmetic _ _ _)) fun _ ↦ .throw _
    · exact .ofExcept _

theorem idle_range (arguments : List Value) (named : List (String × Value)) :
    Idle (Action.range arguments named) := by
  refine .bind (.ofExcept _) fun values ↦ ?_
  dsimp only
  exact .bind (.ofExcept _) fun element ↦ .bind (idle_rangeElements _ _ _ _) fun elements ↦
    .guard _ ((refuses_newArray _ _ _).bind _).barred

theorem idle_ofTable (value : Value) : Idle (Action.ofTable value) :=
  .bind (.ofExcept _) fun _ ↦ ((refuses_newArray _ _ _).bind _).barred

theorem idle_callByName (name : String) (arguments : List Value) (out : Option Value) :
    Idle (Action.callByName name arguments out) := by
  unfold Action.callByName
  cases hconstruct : Action.construct? name arguments (Action.namedOutput out) with
  | none => exact idle_call _ _ _
  | some action =>
    have hnewArray (result : Except Failure (List Value)) (build : List Value → Action Nat)
        (hbuild : ∀ values, Idle (build values)) : Idle (Action.ofExcept result >>= build) :=
      .bind (.ofExcept _) hbuild
    unfold Action.construct? at hconstruct
    dsimp only at hconstruct
    split at hconstruct <;> cases hconstruct
    · exact hnewArray _ _ fun _ ↦ (refuses_newArray _ _ _).barred
    · exact hnewArray _ _ fun _ ↦ (refuses_newArray _ _ _).barred
    · exact hnewArray _ _ fun _ ↦ idle_full _ _ _
    · exact hnewArray _ _ fun _ ↦ idle_full _ _ _
    · exact idle_range _ _
    · exact hnewArray _ _ fun _ ↦ idle_ofTable _

/-! ### Generators -/

theorem idle_newGenerator (size seed entropy : Value) :
    Idle (Action.newGenerator size seed entropy) :=
  .bind (.ofExcept _) fun _ ↦ .bind (.ofExcept _) fun _ ↦
    ((refuses_newContiguous _ _).bind _).barred

theorem idle_drawUniform (state : Nat) (elementName : Value) :
    Idle (Action.drawUniform state elementName) := by
  refine .bind (idle_generator state) fun _ ↦ .bind (.ofExcept _) fun _ ↦ ?_
  dsimp only
  exact .guard _ ((refuses_newContiguous _ _).bind _).barred

theorem idle_skipDraw (state : Nat) : Idle (Action.skipDraw state) :=
  .bind (idle_generator state) fun _ ↦
    .get (fun _ ↦ ((refuses_submit _ _ _).bind _).barred) fun _ _ _ ↦ rfl

/-- Samples that have been kept are given out; they are in an array already. -/
theorem idle_takeKept (state : Nat) : Idle (Action.takeKept state) := by
  intro notice (engine : Engine) (h : engine.Stranded notice)
  have huntouched : Untouched engine
      (engine.setGenerator state { engine.generator state with kept := none }) :=
    ⟨rfl, fun _ ↦ rfl⟩
  exact .carriedOut _ rfl ⟨h.lost, h.pending, h.idle⟩ rfl huntouched fun pending log ↦
    ⟨rfl, pending, log, rfl⟩

theorem idle_drawNormal (state : Nat) (elementName : Value) :
    Idle (Action.drawNormal state elementName) := by
  have hpair (element : ElementType) : Idle (Action.drawNormalPair state element) :=
    .bind (idle_generator state) fun _ ↦ ((refuses_newContiguous _ _).bind _).barred
  refine .bind (.ofExcept _) fun element ↦ ?_
  dsimp only
  refine .guard _ (.bind (idle_takeKept state) fun kept ↦ ?_)
  split
  · split
    · exact .pure _
    · exact .bind (idle_release _) fun _ ↦ hpair _
  · exact hpair _

end ComputeArray
