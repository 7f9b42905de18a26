import ComputeArray.Proofs.Cache.Run

/-!
# What the caches are asked for

A run asks an engine for layouts, modules and pipelines: directly, or through the passes a
submission encodes in turn. `Engine.asked` lists the requests of a run, each with the engine it
finds. Between two requests the caches stay as they are (`traced_afterAll`), so what every request
keeps holds at each request and at the end (`Traced.invariant`).
-/

set_option autoImplicit false

namespace ComputeArray

open Engine

/-! ### Requests -/

/-- What an engine may be asked for. -/
inductive Request where
  | layout (modes : List Mode)
  | module (source : String)
  | pipeline (source : String) (modes : List Mode) (constants : List (String × Value))

/-- The primitive that asks for it. -/
def Request.primitive : Request → Primitive
  | layout modes => .createLayout modes
  | module source => .createModule source
  | pipeline source modes constants => .createPipeline source modes constants

/-- A request, and the engine it finds. -/
structure Asked where
  engine : Engine
  request : Request

namespace Asked

/-- The engine after a request, whether it failed or not. -/
def after (asked : Asked) : Engine := asked.engine.after asked.request.primitive

variable (engine : Engine)

theorem after_layout (modes : List Mode) :
    (⟨engine, .layout modes⟩ : Asked).after = stateAfter (Action.createLayout modes) engine :=
  after_createLayout engine modes

theorem after_module (source : String) :
    (⟨engine, .module source⟩ : Asked).after = stateAfter (Action.createModule source) engine :=
  after_createModule engine source

theorem after_pipeline (source : String) (modes : List Mode) (constants : List (String × Value)) :
    (⟨engine, .pipeline source modes constants⟩ : Asked).after =
      stateAfter (Action.createPipeline source modes constants) engine :=
  after_createPipeline engine source modes constants

end Asked

namespace Dispatch

def request (dispatch : Dispatch) : Request :=
  .pipeline dispatch.source dispatch.modes dispatch.constants

/-- The requests of passes that are encoded in turn, up to the first that fails. -/
def asked : List Dispatch → Engine → List Asked
  | [], _ => []
  | dispatch :: rest, engine =>
    ⟨engine, dispatch.request⟩ ::
      match outcomeOf (Action.encode dispatch) engine with
      | .ok _ => asked rest (stateAfter (Action.encode dispatch) engine)
      | .error _ => []

end Dispatch

/-- What a submission does before it encodes passes. -/
def Action.sendRead (dispatches : List Dispatch) : Action Unit := do
  assertActive
  beginEncoding dispatches

/-- The requests a primitive makes. -/
def Primitive.asked : Primitive → Engine → List Asked
  | createLayout modes, engine => [⟨engine, .layout modes⟩]
  | createModule source, engine => [⟨engine, .module source⟩]
  | createPipeline source modes constants, engine => [⟨engine, .pipeline source modes constants⟩]
  | submit dispatches _ _, engine =>
    match outcomeOf (Action.sendRead dispatches) engine with
    | .ok _ => Dispatch.asked dispatches (stateAfter (Action.sendRead dispatches) engine)
    | .error _ => []
  | _, _ => []

/-- The requests primitives make in turn. -/
def Engine.asked : Engine → List Primitive → List Asked
  | _, [] => []
  | engine, primitive :: rest => primitive.asked engine ++ (engine.after primitive).asked rest

/-! ### Runs between requests -/

/-- A run from one engine to another makes these requests and leaves the caches alone in between. -/
inductive Traced : Engine → List Asked → Engine → Prop
  | rest {first last : Engine} (h : SameCaches first last) : Traced first [] last
  | ask {first last : Engine} {asked : Asked} {later : List Asked}
      (h : SameCaches first asked.engine) (hlater : Traced asked.after later last) :
      Traced first (asked :: later) last

namespace Traced

variable {first middle last : Engine} {asked later : List Asked}

theorem of_sameCaches (hsame : SameCaches first middle) (h : Traced middle asked last) :
    Traced first asked last := by
  cases h with
  | rest h => exact .rest (trans_of SameCaches hsame h)
  | ask h hlater => exact .ask (trans_of SameCaches hsame h) hlater

theorem trans (hfirst : Traced first asked middle) (hlast : Traced middle later last) :
    Traced first (asked ++ later) last := by
  induction hfirst with
  | rest h => exact hlast.of_sameCaches h
  | ask h _ ih => exact .ask h (ih hlast)

theorem single (asked : Asked) : Traced asked.engine [asked] asked.after :=
  .ask (refl_of SameCaches _) (.rest (refl_of SameCaches _))

/-- What changes of everything but the caches preserve, and every request as well, holds of the
engine each request finds and at the end. It may speak of the requests made so far. -/
theorem invariant {I : List Asked → Engine → Prop}
    (hsame : ∀ {history before after}, SameCaches before after → I history before →
      I history after) (h : Traced first asked last)
    (hask : ∀ ask ∈ asked, ∀ history, I history ask.engine → I (history ++ [ask]) ask.after)
    {history : List Asked} (hstart : I history first) :
    I (history ++ asked) last ∧ ∀ earlier ask later, asked = earlier ++ ask :: later →
      I (history ++ earlier) ask.engine := by
  induction h generalizing history with
  | rest h =>
    rw [List.append_nil]
    exact ⟨hsame h hstart, fun earlier ask later heq ↦ by simp at heq⟩
  | @ask first last asked later h _ ih =>
    have hfound : I history asked.engine := hsame h hstart
    obtain ⟨hlast, hlater⟩ := ih (fun ask hmem ↦ hask ask (List.mem_cons_of_mem _ hmem))
      (hask asked List.mem_cons_self history hfound)
    rw [List.append_assoc] at hlast
    refine ⟨hlast, fun earlier ask rest heq ↦ ?_⟩
    cases earlier with
    | nil =>
      obtain ⟨rfl, -⟩ := List.cons.inj heq
      rwa [List.append_nil]
    | cons next earlier =>
      obtain ⟨rfl, htail⟩ := List.cons.inj heq
      have := hlater earlier ask rest htail
      rwa [List.append_assoc] at this

end Traced

/-! ### Submissions -/

theorem traced_encode (dispatch : Dispatch) (engine : Engine) :
    Traced engine [⟨engine, dispatch.request⟩] (stateAfter (Action.encode dispatch) engine) := by
  have hstate : stateAfter (Action.encode dispatch) engine =
      (⟨engine, dispatch.request⟩ : Asked).after := by
    rw [Dispatch.request, Asked.after_pipeline, Action.encode, stateAfter_bind]
    cases outcomeOf (Action.createPipeline dispatch.source dispatch.modes dispatch.constants)
        engine with
    | error failure => rfl
    | ok created =>
      simp only [stateAfter_bind, outcomeOf_get, stateAfter_get, stateAfter_grid]
      cases outcomeOf (Action.grid dispatch.lanes) _ <;> rfl
  rw [hstate]
  exact .single ⟨engine, dispatch.request⟩

theorem traced_mapM_encode (dispatches : List Dispatch) (engine : Engine) :
    Traced engine (Dispatch.asked dispatches engine)
      (stateAfter (dispatches.mapM Action.encode) engine) := by
  induction dispatches generalizing engine with
  | nil => exact .rest (refl_of SameCaches engine)
  | cons dispatch rest ih =>
    have hfirst := traced_encode dispatch engine
    rw [List.mapM_cons, Dispatch.asked, stateAfter_bind]
    cases houtcome : outcomeOf (Action.encode dispatch) engine with
    | error failure => exact hfirst
    | ok command =>
      refine hfirst.trans ?_
      have hrest := ih (stateAfter (Action.encode dispatch) engine)
      simp only [stateAfter_bind, stateAfter_pure]
      cases outcomeOf (rest.mapM Action.encode) _ <;> exact hrest

theorem sameCaches_sendRead (dispatches : List Dispatch) :
    Moves SameCaches (Action.sendRead dispatches) :=
  .bind .assertActive fun _ ↦
    .beginEncoding sameCaches_send (sameCaches_changeDevice fun _ ↦ rfl) dispatches

/-- What a submission does once its passes are encoded. -/
def Action.finish (dispatches : List Dispatch) (helpers : List Nat) (copies : List (Nat × Nat))
    (passes : List Command) : Action Nat := do
  let moves ← copies.mapM encodeCopy
  let serial ← handOver dispatches copies (passes ++ moves)
  settle serial helpers
  return serial

theorem submit_eq (dispatches : List Dispatch) (helpers : List Nat) (copies : List (Nat × Nat)) :
    Action.submit dispatches helpers copies = (do
      Action.sendRead dispatches
      let passes ← dispatches.mapM Action.encode
      Action.finish dispatches helpers copies passes) := by
  simp only [Action.submit, Action.prepare, Action.sendRead, Action.finish, bind_assoc, pure_bind]

theorem sameCaches_finish (dispatches : List Dispatch) (helpers : List Nat)
    (copies : List (Nat × Nat)) (passes : List Command) :
    Moves SameCaches (Action.finish dispatches helpers copies passes) := by
  have hmark : ∀ buffer, Moves SameCaches (Action.markDeviceDirty buffer) :=
    fun _ ↦ sameCaches_changeArray _ _
  exact .bind (.mapM _ fun copy _ ↦ .encodeCopy sameCaches_send copy) fun _ ↦
    .bind (.bind (.forM _ fun buffer _ ↦ hmark buffer) fun _ ↦
      .bind (.forM _ fun buffer _ ↦ hmark buffer) fun _ ↦ sameCaches_submitCommands _) fun serial ↦
        .bind (sameCaches_settle serial helpers) fun _ ↦ .pure _

theorem traced_submit (dispatches : List Dispatch) (helpers : List Nat)
    (copies : List (Nat × Nat)) (engine : Engine) :
    Traced engine ((Primitive.submit dispatches helpers copies).asked engine)
      (engine.after (.submit dispatches helpers copies)) := by
  have hsent := sameCaches_sendRead dispatches engine
  rw [after_submit, submit_eq, stateAfter_bind,
    Primitive.asked]
  cases houtcome : outcomeOf (Action.sendRead dispatches) engine with
  | error failure => exact .rest hsent
  | ok done =>
    have hencoded := (traced_mapM_encode dispatches _).of_sameCaches hsent
    simp only [stateAfter_bind]
    cases hpasses : outcomeOf (dispatches.mapM Action.encode) _ with
    | error failure => exact hencoded
    | ok passes =>
      have hfinished := hencoded.trans
        (.rest (sameCaches_finish dispatches helpers copies passes _))
      rwa [List.append_nil] at hfinished

/-! ### Runs -/

theorem traced_after (primitive : Primitive) (engine : Engine) :
    Traced engine (primitive.asked engine) (engine.after primitive) := by
  cases primitive with
  | submit dispatches helpers copies => exact traced_submit dispatches helpers copies engine
  | createLayout modes => exact .single ⟨engine, .layout modes⟩
  | createModule source => exact .single ⟨engine, .module source⟩
  | createPipeline source modes constants =>
    exact .single ⟨engine, .pipeline source modes constants⟩
  | _ => exact .rest (sameCaches_after id engine)

theorem traced_afterAll (primitives : List Primitive) (engine : Engine) :
    Traced engine (engine.asked primitives) (engine.afterAll primitives) := by
  induction primitives generalizing engine with
  | nil => exact .rest (refl_of SameCaches engine)
  | cons primitive rest ih => exact (traced_after primitive engine).trans (ih _)

/-! ### Pipelines a request makes -/

namespace Engine

/-- The pipelines kept, and all those the device has made. -/
def pipelineRecord (engine : Engine) :=
  (engine.pipelines, engine.tunedPipelines, engine.device.pipelines)

def SamePipelines (before after : Engine) : Prop := after.pipelineRecord = before.pipelineRecord

instance : Std.Refl SamePipelines := ⟨fun _ ↦ rfl⟩

instance : IsTrans Engine SamePipelines := ⟨fun _ _ _ hfirst hlast ↦ hlast.trans hfirst⟩

theorem SameCaches.samePipelines {before after : Engine} (h : SameCaches before after) :
    SamePipelines before after := by
  simp only [SameCaches, caches, Device.objects, Prod.mk.injEq] at h
  simp only [SamePipelines, pipelineRecord, h]

variable {before after : Engine}

theorem SamePipelines.pipelines (h : SamePipelines before after) :
    after.pipelines = before.pipelines :=
  congrArg (·.1) h

theorem SamePipelines.tunedPipelines (h : SamePipelines before after) :
    after.tunedPipelines = before.tunedPipelines :=
  congrArg (·.2.1) h

theorem SamePipelines.devicePipelines (h : SamePipelines before after) :
    after.device.pipelines = before.device.pipelines :=
  congrArg (·.2.2) h

end Engine

theorem samePipelines_createLayout (modes : List Mode) :
    Moves SamePipelines (Action.createLayout modes) := by
  intro engine
  rcases createLayout_cases modes engine with ⟨_, -, h⟩ | ⟨_, -, -, h⟩ | ⟨-, -, h⟩
  · rw [h]
    exact refl_of SamePipelines engine
  · rw [h]
    exact refl_of SamePipelines engine
  · rw [h]
    rfl

theorem samePipelines_createModule (source : String) :
    Moves SamePipelines (Action.createModule source) := by
  have hcompile : Moves SamePipelines (Action.onDevice (Device.compile source)) := by
    intro engine
    rw [stateAfter_onDevice]
    unfold Device.compile
    cases engine.device.compiler.answer source <;> rfl
  refine .bind .assertActive fun _ ↦ .bind .get fun engine ↦ ?_
  split
  · exact .pure _
  · refine .bind hcompile fun compiled ↦ ?_
    split
    · exact .throw _
    · exact .bind (fun engine ↦ SameCaches.samePipelines (caches_review _ _ engine)) fun _ ↦
        .bind (.update fun _ ↦ rfl) fun _ ↦ .pure _

/-- Building a pipeline fails and makes none, or makes one of a module for the source. -/
theorem buildPipeline_cases (source : String) (layout : Nat) (constants : List (String × Value))
    (engine : Engine) :
    (∃ failure, outcomeOf (Action.createModule source) engine = .error failure ∧
      outcomeOf (Action.buildPipeline source layout constants) engine = .error failure ∧
      stateAfter (Action.buildPipeline source layout constants) engine =
        stateAfter (Action.createModule source) engine) ∨
    ∃ module, outcomeOf (Action.createModule source) engine = .ok module ∧
      outcomeOf (Action.buildPipeline source layout constants) engine =
        .ok (engine.device.pipelines.size + 1) ∧
      stateAfter (Action.buildPipeline source layout constants) engine =
        { stateAfter (Action.createModule source) engine with
          device := ((stateAfter (Action.createModule source) engine).device.createPipeline layout
            module constants).2 } := by
  have hsame := samePipelines_createModule source engine
  simp only [Action.buildPipeline, outcomeOf_bind, stateAfter_bind]
  cases outcomeOf (Action.createModule source) engine with
  | error failure => exact .inl ⟨failure, rfl, rfl, rfl⟩
  | ok module =>
    refine .inr ⟨module, rfl, ?_, rfl⟩
    rw [← hsame.devicePipelines]
    rfl

/-- A pipeline without constants is not made and all pipelines stay as
they are, it is found, or a new one is kept. -/
theorem plainPipeline_cases (source signature : String) (layout : Nat) (engine : Engine) :
    let after := stateAfter (Action.plainPipeline source signature layout) engine
    let outcome := outcomeOf (Action.plainPipeline source signature layout) engine
    (∃ failure, outcome = .error failure ∧ SamePipelines engine after) ∨
    (∃ pipeline, engine.pipelines.lookup (source, signature) = some pipeline ∧
      outcome = .ok pipeline ∧ after = engine) ∨
    ∃ module, engine.pipelines.lookup (source, signature) = none ∧
      outcomeOf (Action.createModule source) engine = .ok module ∧
      outcome = .ok (engine.device.pipelines.size + 1) ∧
      after.pipelines =
        engine.pipelines ++ [((source, signature), engine.device.pipelines.size + 1)] ∧
      after.tunedPipelines = engine.tunedPipelines ∧
      after.device.pipelines = engine.device.pipelines.push ⟨layout, module, []⟩ := by
  intro after outcome
  have hsame := samePipelines_createModule source engine
  simp only [outcome, after, Action.plainPipeline, outcomeOf_bind, stateAfter_bind, outcomeOf_get,
    stateAfter_get]
  cases hlookup : engine.pipelines.lookup (source, signature) with
  | some pipeline => exact .inr (.inl ⟨pipeline, rfl, rfl, rfl⟩)
  | none =>
    simp only [outcomeOf_bind, stateAfter_bind]
    rcases buildPipeline_cases source layout [] engine with
      ⟨failure, -, houtcome, hstate⟩ | ⟨module, hmodule, houtcome, hstate⟩
    · rw [houtcome, hstate]
      exact .inl ⟨failure, rfl, hsame⟩
    · rw [houtcome, hstate]
      exact .inr (.inr ⟨module, trivial, hmodule, rfl, congrArg (· ++ _) hsame.pipelines,
        hsame.tunedPipelines, congrArg (Array.push · _) hsame.devicePipelines⟩)

/-- A pipeline with constants is not made and all pipelines stay as
they are, the one of the same key is found, or a new one is kept. -/
theorem tunedPipeline_cases (source signature : String) (layout : Nat)
    (constants : List (String × Value)) (engine : Engine) :
    let key := TunedKey.make source signature constants
    let after := stateAfter (Action.tunedPipeline source signature layout constants) engine
    let outcome := outcomeOf (Action.tunedPipeline source signature layout constants) engine
    (∃ failure, outcome = .error failure ∧ SamePipelines engine after) ∨
    (∃ entry, TunedKey.check constants = .ok () ∧
      engine.tunedPipelines.find? (fun (kept, _) ↦ kept.same key) = some entry ∧
      outcome = .ok entry.2 ∧ after = engine.touch key) ∨
    ∃ module, TunedKey.check constants = .ok () ∧
      engine.tunedPipelines.find? (fun (kept, _) ↦ kept.same key) = none ∧
      outcome = .ok (engine.device.pipelines.size + 1) ∧
      after.tunedPipelines =
        (engine.keepTuned key (engine.device.pipelines.size + 1)).tunedPipelines ∧
      after.pipelines = engine.pipelines ∧
      after.device.pipelines = engine.device.pipelines.push ⟨layout, module, constants⟩ := by
  intro key after outcome
  have hsame := samePipelines_createModule source engine
  have hkept : ∀ (middle : Engine) (pipeline : Nat),
      middle.tunedPipelines = engine.tunedPipelines →
        (middle.keepTuned key pipeline).tunedPipelines =
          (engine.keepTuned key pipeline).tunedPipelines := by
    intro middle pipeline h
    simp only [keepTuned, h]
  simp only [outcome, after, Action.tunedPipeline, outcomeOf_bind, stateAfter_bind,
    outcomeOf_actionOfExcept, stateAfter_actionOfExcept]
  cases hcheck : TunedKey.check constants with
  | error failure => exact .inl ⟨failure, rfl, rfl⟩
  | ok checked =>
    simp only [outcomeOf_get, stateAfter_get, tunedPipeline?]
    cases hfind : engine.tunedPipelines.find? fun (kept, _) ↦ kept.same key with
    | some entry => exact .inr (.inl ⟨entry, trivial, rfl, rfl, rfl⟩)
    | none =>
      simp only [Option.map_none, outcomeOf_bind, stateAfter_bind]
      rcases buildPipeline_cases source layout constants engine with
        ⟨failure, -, houtcome, hstate⟩ | ⟨module, -, houtcome, hstate⟩
      · rw [houtcome, hstate]
        exact .inl ⟨failure, rfl, hsame⟩
      · rw [houtcome, hstate]
        exact .inr (.inr ⟨module, trivial, trivial, rfl, hkept _ _ hsame.tunedPipelines,
          hsame.pipelines, congrArg (Array.push · _) hsame.devicePipelines⟩)

/-- What fails to give a pipeline leaves all pipelines as they are. -/
theorem samePipelines_pipelineFor_of_error {source signature : String} {layout : Nat}
    {constants : List (String × Value)} {engine : Engine} {failure : Failure}
    (h : outcomeOf (Action.pipelineFor source signature layout constants) engine = .error failure) :
    SamePipelines engine
      (stateAfter (Action.pipelineFor source signature layout constants) engine) := by
  unfold Action.pipelineFor at h ⊢
  split at h
  · next hempty =>
    rw [if_pos hempty]
    rcases plainPipeline_cases source signature layout engine with
      ⟨_, -, hsame⟩ | ⟨_, -, hok, -⟩ | ⟨_, -, -, hok, -, -, -⟩
    · exact hsame
    · cases hok.symm.trans h
    · cases hok.symm.trans h
  · next hempty =>
    rw [if_neg hempty]
    rcases tunedPipeline_cases source signature layout constants engine with
      ⟨_, -, hsame⟩ | ⟨_, -, -, hok, -⟩ | ⟨_, -, -, hok, -, -, -⟩
    · exact hsame
    · cases hok.symm.trans h
    · cases hok.symm.trans h

/-- A pipeline is requested once its layout is there. -/
theorem createPipeline_cases (source : String) (modes : List Mode)
    (constants : List (String × Value)) (engine : Engine) :
    (∃ failure, outcomeOf (Action.createPipeline source modes constants) engine = .error failure ∧
      stateAfter (Action.createPipeline source modes constants) engine = engine) ∨
    ∃ layout middle,
      outcomeOf (Action.createLayout modes) engine = .ok (signatureOf modes, layout) ∧
      middle = stateAfter (Action.createLayout modes) engine ∧
      outcomeOf (Action.createPipeline source modes constants) engine =
        (outcomeOf (Action.pipelineFor source (signatureOf modes) layout constants) middle).map
          (·, layout) ∧
      stateAfter (Action.createPipeline source modes constants) engine =
        stateAfter (Action.pipelineFor source (signatureOf modes) layout constants) middle := by
  simp only [Action.createPipeline, outcomeOf_bind, stateAfter_bind]
  cases hcreated : outcomeOf (Action.createLayout modes) engine with
  | error failure =>
    refine .inl ⟨failure, rfl, ?_⟩
    rcases createLayout_cases modes engine with ⟨-, -, h⟩ | ⟨_, -, h, -⟩ | ⟨-, h, -⟩
    · exact h
    · rw [hcreated] at h
      cases h
    · rw [hcreated] at h
      cases h
  | ok created =>
    obtain ⟨signature, layout⟩ := created
    obtain ⟨rfl, -⟩ := lookup_of_createLayout hcreated
    refine .inr ⟨layout, _, rfl, rfl, ?_, ?_⟩
    · dsimp only
      cases outcomeOf (Action.pipelineFor source (signatureOf modes) layout constants) _ <;> rfl
    · dsimp only
      cases outcomeOf (Action.pipelineFor source (signatureOf modes) layout constants) _ <;> rfl

/-- A request for a pipeline leaves those kept without constants, or adds one. -/
theorem prefix_pipelines_createPipeline (source : String) (modes : List Mode)
    (constants : List (String × Value)) (engine : Engine) :
    engine.pipelines <+:
      (stateAfter (Action.createPipeline source modes constants) engine).pipelines := by
  have hsame : ∀ {kept : List ((String × String) × Nat)}, kept = engine.pipelines →
      engine.pipelines <+: kept := by
    rintro _ rfl
    exact List.prefix_rfl
  rcases createPipeline_cases source modes constants engine with
    ⟨_, -, hstate⟩ | ⟨layout, middle, -, rfl, -, hstate⟩
  · exact hsame (congrArg Engine.pipelines hstate)
  have hmiddle := (samePipelines_createLayout modes engine).pipelines
  rw [hstate, Action.pipelineFor]
  split
  · rcases plainPipeline_cases source (signatureOf modes) layout _ with
      ⟨_, -, h⟩ | ⟨_, -, -, h⟩ | ⟨_, -, -, -, h, -, -⟩
    · exact hsame (h.pipelines.trans hmiddle)
    · exact hsame ((congrArg Engine.pipelines h).trans hmiddle)
    · rw [h, hmiddle]
      exact List.prefix_append _ _
  · rcases tunedPipeline_cases source (signatureOf modes) layout constants _ with
      ⟨_, -, h⟩ | ⟨_, -, -, -, h⟩ | ⟨_, -, -, -, -, h, -⟩
    · exact hsame (h.pipelines.trans hmiddle)
    · exact hsame ((congrArg Engine.pipelines h).trans hmiddle)
    · exact hsame (h.trans hmiddle)

end ComputeArray
