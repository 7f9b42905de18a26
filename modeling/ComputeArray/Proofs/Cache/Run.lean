import ComputeArray.Proofs.Cache.Faithful
import ComputeArray.Proofs.Run.Steps

/-!
# Caches along a run

Few primitives ask for layouts, modules and pipelines, all others leave the caches as they are
(`sameCaches_after`). Every primitive keeps the caches faithful, so they are faithful in every state
a run passes through.
-/

set_option autoImplicit false

namespace ComputeArray

open Engine

/-- A change of the device that leaves its objects alone. -/
theorem sameCaches_changeDevice {change : Device → Device}
    (h : ∀ device, (change device).objects = device.objects) :
    Moves SameCaches (Action.changeDevice change) := by
  intro engine
  simp only [SameCaches, caches, stateAfter_changeDevice, h]

theorem sameCaches_changeArray (buffer : Nat) (change : ArrayState → ArrayState) :
    Moves SameCaches (Action.changeArray buffer change) :=
  fun _ ↦ rfl

theorem sameCaches_submitCommands (commands : List Command) :
    Moves SameCaches (Action.submitCommands commands) :=
  .bind (sameCaches_changeDevice (Device.objects_submit commands)) fun _ ↦
    .bind (.update fun _ ↦ rfl) fun _ ↦ .bind .get fun _ ↦ .pure _

theorem caches_retire (serial : Int) (engine : Engine) :
    (engine.retire serial).caches = engine.caches := by
  have hrecord : ∀ (device : Device) (entry : Nat × Nat),
      (device.record (.destroyBuffer entry.2)).objects = device.objects := fun _ _ ↦ rfl
  simp only [caches, retire, Device.objects_foldl hrecord]

theorem sameCaches_retire (serial : Int) : Moves SameCaches (modify (retire serial)) :=
  caches_retire serial

theorem sameCaches_send (buffer : Nat) : Moves SameCaches (Action.send buffer) := by
  refine .bind (.array buffer) fun array ↦ ?_
  split
  · exact .pure _
  · refine .bind .assertActive fun _ ↦ .bind (sameCaches_changeDevice ?_) fun _ ↦
      sameCaches_changeArray _ _
    exact fun device ↦ Device.objects_write _ _ _

theorem sameCaches_copyToStaging (buffer : Nat) :
    Moves SameCaches (Action.copyToStaging buffer) := by
  refine .bind .assertActive fun _ ↦ .bind (.array buffer) fun array ↦ .bind .get fun engine ↦
    .bind (fun _ ↦ rfl) fun _ ↦ .bind (sameCaches_changeDevice fun _ ↦ rfl) fun _ ↦
      .bind (sameCaches_submitCommands _) fun _ ↦ .pure _

theorem sameCaches_finishReadBack (buffer : Nat) (readBack : ReadBack) :
    Moves SameCaches (Action.finishReadBack buffer readBack) :=
  .bind .get fun _ ↦ .bind (sameCaches_changeArray _ _) fun _ ↦
    .bind (sameCaches_changeDevice fun _ ↦ rfl) fun _ ↦
      .bind (sameCaches_changeDevice fun _ ↦ rfl) fun _ ↦
        .bind (sameCaches_retire _) fun _ ↦ sameCaches_changeArray _ _

theorem sameCaches_loadBlocking (buffer : Nat) : Moves SameCaches (Action.loadBlocking buffer) := by
  refine .bind (.array buffer) fun array ↦ ?_
  split
  · exact .pure _
  · exact .bind (sameCaches_copyToStaging buffer) fun _ ↦
      .bind (sameCaches_changeDevice fun _ ↦ rfl) fun _ ↦ sameCaches_finishReadBack _ _

theorem sameCaches_setLoading (buffer : Nat) (loading : Loading) :
    Moves SameCaches (Action.setLoading buffer loading) :=
  sameCaches_changeArray _ _

theorem sameCaches_requestLoad (buffer : Nat) : Moves SameCaches (Action.requestLoad buffer) := by
  refine .bind (.array buffer) fun array ↦ ?_
  split
  · exact sameCaches_setLoading _ _
  · exact .pure _

theorem sameCaches_startLoad (buffer : Nat) : Moves SameCaches (Action.startLoad buffer) := by
  refine .bind (.array buffer) fun array ↦ ?_
  split
  · exact .bind (sameCaches_setLoading _ _) fun _ ↦ .bind (sameCaches_copyToStaging buffer) fun _ ↦
      .bind (sameCaches_changeDevice fun _ ↦ rfl) fun _ ↦ .bind (sameCaches_setLoading _ _) fun _ ↦
        .pure _
  · exact .pure _

theorem sameCaches_finishLoad (buffer : Nat) : Moves SameCaches (Action.finishLoad buffer) := by
  refine .bind (.array buffer) fun array ↦ ?_
  split
  · exact .bind (sameCaches_setLoading _ _) fun _ ↦ sameCaches_finishReadBack _ _
  · exact .pure _

theorem sameCaches_load (buffer : Nat) : Moves SameCaches (Action.load buffer) :=
  .bind (sameCaches_requestLoad _) fun _ ↦ .bind (sameCaches_startLoad _) fun _ ↦
    sameCaches_finishLoad _

theorem sameCaches_updateArray (buffer : Nat) (update : ArrayState → Except Failure ArrayState) :
    Moves SameCaches (Action.updateArray buffer update) :=
  .bind (.array buffer) fun _ ↦ .bind (.ofExcept _) fun _ ↦ sameCaches_changeArray _ _

theorem sameCaches_loadThenUpdate (buffer : Nat)
    (update : ArrayState → Except Failure ArrayState) :
    Moves SameCaches (do
      if (← Action.array buffer).deviceDirty then Action.loadBlocking buffer
      Action.updateArray buffer update) := by
  refine .bind (.array buffer) fun array ↦ ?_
  split
  · exact .bind (sameCaches_loadBlocking buffer) fun _ ↦ sameCaches_updateArray _ _
  · exact sameCaches_updateArray _ _

theorem sameCaches_settle (serial : Nat) (helpers : List Nat) :
    Moves SameCaches (Action.settle serial helpers) := by
  refine .bind (.update fun _ ↦ rfl) fun _ ↦ .bind .get fun engine ↦ ?_
  split
  · exact .bind (sameCaches_changeDevice fun _ ↦ rfl) fun _ ↦ sameCaches_retire _
  · exact .pure _

theorem sameCaches_allocate (element : ElementType) (shape strides : List Nat)
    (customStrides : Bool) (count : Int) :
    Moves SameCaches (Action.allocate element shape strides customStrides count) :=
  .bind (.ofExcept _) fun _ ↦ .bind .assertActive fun _ ↦
    .bind (fun _ ↦ rfl) fun _ ↦ .bind (.update fun _ ↦ rfl) fun _ ↦ .pure _

theorem sameCaches_stridesBuffer (strides : List Int) :
    Moves SameCaches (Action.stridesBuffer strides) :=
  .bind (.ofExcept _) fun _ ↦ .bind .assertActive fun _ ↦ fun _ ↦ rfl

theorem caches_release (buffer : Nat) (engine : Engine) :
    (engine.release buffer).caches = engine.caches := by
  obtain ⟨-, h⟩ | ⟨-, _, h, -⟩ := release_cases buffer engine
  · rw [h]
  · rw [h]
    rfl

theorem caches_collect (arrays generators : List Nat) (engine : Engine) :
    (engine.collect arrays generators).caches = engine.caches :=
  foldl_release_eq caches_release _ (engine.keepGenerators generators)

theorem caches_markLost (wanted : Bool) (reason message : Value) (engine : Engine) :
    (engine.markLost wanted reason message).caches = engine.caches := by
  rcases markLost_cases wanted reason message engine with ⟨-, hsame⟩ | ⟨-, log, hmarked⟩
  · rw [hsame]
  · rw [hmarked]
    rfl

theorem sameCaches_markLost (arguments : List Value) :
    Moves SameCaches (Action.markLost arguments) :=
  .markLost caches_markLost arguments

theorem sameCaches_destroy : Moves SameCaches Action.destroy :=
  .destroy caches_markLost fun _ ↦ rfl

theorem sameCaches_synchronize (blocking : Bool) :
    Moves SameCaches (Action.synchronize blocking) :=
  .bind .assertActive fun _ ↦ .bind .get fun _ ↦ .bind (sameCaches_changeDevice fun _ ↦ rfl)
    fun _ ↦ sameCaches_retire _

/-! ### Primitives that leave the caches alone -/

/-- Whether the primitive asks for layouts, modules or pipelines. -/
def Primitive.Asks : Primitive → Prop
  | .submit .. | .createLayout _ | .createModule _ | .createPipeline .. => True
  | _ => False

theorem sameCaches_after {primitive : Primitive} (hasks : ¬ primitive.Asks) (engine : Engine) :
    SameCaches engine (engine.after primitive) := by
  revert engine
  change Moves SameCaches primitive.action
  cases primitive with
  | allocate element shape strides customStrides count =>
    exact .bind (sameCaches_allocate _ _ _ _ _) fun _ ↦ .pure _
  | stridesBuffer strides => exact .bind (sameCaches_stridesBuffer _) fun _ ↦ .pure _
  | submit dispatches helpers copies => exact absurd trivial hasks
  | setValue buffer value index => exact sameCaches_loadThenUpdate _ _
  | setElements buffer values => exact sameCaches_loadThenUpdate _ _
  | reshape buffer extents => exact sameCaches_updateArray _ _
  | send buffer => exact sameCaches_send buffer
  | loadBlocking buffer => exact sameCaches_loadBlocking buffer
  | load buffer => exact sameCaches_load buffer
  | createLayout modes => exact absurd trivial hasks
  | createModule source => exact absurd trivial hasks
  | createPipeline source modes constants => exact absurd trivial hasks
  | release buffer => exact .update fun _ ↦ caches_release _ _
  | collect arrays generators => exact .update fun _ ↦ caches_collect _ _ _
  | setGenerator state generator => exact .update fun _ ↦ rfl
  | addGenerator state generator => exact .update fun _ ↦ rfl
  | synchronize blocking => exact sameCaches_synchronize _
  | retire serial => exact sameCaches_retire _
  | markLost arguments => exact sameCaches_markLost _
  | destroy => exact sameCaches_destroy
  | setCompiler compiler => exact sameCaches_changeDevice fun _ ↦ rfl
  | requestLoad buffer => exact sameCaches_requestLoad buffer
  | startLoad buffer => exact .bind (sameCaches_startLoad buffer) fun _ ↦ .pure _
  | finishLoad buffer => exact sameCaches_finishLoad buffer
  | markDeviceDirty buffer => exact sameCaches_changeArray _ _
  | poke buffer start bytes =>
    exact sameCaches_changeDevice fun device ↦ Device.objects_setBytes _ _ _
  | replaceCalls calls => exact sameCaches_changeDevice fun _ ↦ rfl

/-! ### Faithful caches -/

theorem caching_of_sameCaches {α : Type} {action : Action α} (h : Moves SameCaches action) :
    Moves Caching action :=
  fun engine ↦ .of_caches_eq (h engine)

theorem caching_send (buffer : Nat) : Moves Caching (Action.send buffer) :=
  caching_of_sameCaches (sameCaches_send buffer)

theorem caching_allocate (element : ElementType) (shape strides : List Nat)
    (customStrides : Bool) (count : Int) :
    Moves Caching (Action.allocate element shape strides customStrides count) :=
  caching_of_sameCaches (sameCaches_allocate _ _ _ _ _)

theorem caching_stridesBuffer (strides : List Int) :
    Moves Caching (Action.stridesBuffer strides) :=
  caching_of_sameCaches (sameCaches_stridesBuffer _)

theorem caching_createPipeline (source : String) (modes : List Mode)
    (constants : List (String × Value)) :
    Moves Caching (Action.createPipeline source modes constants) := by
  intro engine hfaithful
  obtain ⟨hafter, hgrow, -⟩ := createPipeline_spec source modes constants hfaithful
  exact ⟨hafter, hgrow⟩

theorem caching_encode (dispatch : Dispatch) : Moves Caching (Action.encode dispatch) :=
  .bind (caching_createPipeline _ _ _) fun _ ↦ .bind .get fun _ ↦
    .bind (.grid _) fun _ ↦ .pure _

theorem caching_beginEncoding (dispatches : List Dispatch) :
    Moves Caching (Action.beginEncoding dispatches) :=
  .beginEncoding caching_send (caching_of_sameCaches (sameCaches_changeDevice fun _ ↦ rfl)) _

theorem caching_submit (dispatches : List Dispatch) (helpers : List Nat)
    (copies : List (Nat × Nat)) : Moves Caching (Action.submit dispatches helpers copies) :=
  .submit caching_send (caching_of_sameCaches (sameCaches_changeDevice fun _ ↦ rfl))
    caching_encode
    (fun _ ↦ caching_of_sameCaches (sameCaches_changeArray _ _))
    (fun _ ↦ caching_of_sameCaches (sameCaches_submitCommands _))
    (fun _ _ ↦ caching_of_sameCaches (sameCaches_settle _ _)) _ _ _

/-- An encoded pass binds a kept layout with the modes of the dispatch, and its pipeline serves the
source of the dispatch with the settled constants. -/
theorem encode_spec {dispatch : Dispatch} {engine : Engine} {command : Command}
    (hfaithful : engine.FaithfulCaches)
    (h : outcomeOf (Action.encode dispatch) engine = .ok command) :
    let after := stateAfter (Action.encode dispatch) engine
    ∃ pipeline layout buffers groups, command = .dispatch pipeline layout buffers groups ∧
      after.FaithfulCaches ∧ after.layouts.lookup (signatureOf dispatch.modes) = some layout ∧
      buffers.map Prod.fst = dispatch.bindings.map (fun binding ↦ binding.1.buffer) ∧
      after.Serves pipeline dispatch.source (signatureOf dispatch.modes)
        (engine.settledConstants dispatch.source (signatureOf dispatch.modes)
          dispatch.constants) := by
  obtain ⟨hafter, -, hspec⟩ :=
    createPipeline_spec dispatch.source dispatch.modes dispatch.constants hfaithful
  simp only [Action.encode, outcomeOf_bind, stateAfter_bind] at h ⊢
  cases hcreated : outcomeOf
      (Action.createPipeline dispatch.source dispatch.modes dispatch.constants) engine with
  | error failure =>
    rw [hcreated] at h
    cases h
  | ok created =>
    obtain ⟨pipeline, layout⟩ := created
    obtain ⟨hlayout, hserves⟩ := hspec pipeline layout hcreated
    rw [hcreated] at h
    set middle := stateAfter
      (Action.createPipeline dispatch.source dispatch.modes dispatch.constants) engine
    simp only [outcomeOf_get, stateAfter_get, stateAfter_grid] at h ⊢
    cases hgrid : outcomeOf (Action.grid dispatch.lanes) middle with
    | error failure =>
      rw [hgrid] at h
      cases h
    | ok groups =>
      rw [hgrid] at h
      cases h
      exact ⟨pipeline, layout, _, groups, rfl, hafter, hlayout, by simp, hserves⟩

/-- Every primitive keeps the caches faithful. -/
theorem caching_after (primitive : Primitive) (engine : Engine) :
    Caching engine (engine.after primitive) := by
  by_cases hasks : primitive.Asks
  · revert engine
    change Moves Caching primitive.action
    cases primitive with
    | submit dispatches helpers copies => exact .bind (caching_submit _ _ _) fun _ ↦ .pure _
    | createLayout modes => exact .bind (caching_createLayout _) fun _ ↦ .pure _
    | createModule source => exact .bind (caching_createModule _) fun _ ↦ .pure _
    | createPipeline source modes constants =>
      exact .bind (caching_createPipeline _ _ _) fun _ ↦ .pure _
    | _ => exact hasks.elim
  · exact .of_caches_eq (sameCaches_after hasks engine)

theorem caching_afterAll (primitives : List Primitive) (engine : Engine) :
    Caching engine (engine.afterAll primitives) := by
  induction primitives generalizing engine with
  | nil => exact refl_of Caching engine
  | cons primitive rest ih =>
    exact trans_of Caching (caching_after primitive engine) (ih (engine.after primitive))

/-- The caches of a new engine on a new device have no entries. -/
theorem faithfulCaches_create (computing : Computing) (features : List String) (limits : Limits)
    (destroyFailure : Option String) (options : Options) :
    (Engine.create (Device.createWith computing features limits destroyFailure)
      options).FaithfulCaches :=
  ⟨fun _ _ h ↦ by (cases h), fun _ _ h ↦ by (cases h), fun _ _ _ h ↦ by (cases h),
    fun _ h ↦ by (cases h)⟩

end ComputeArray
