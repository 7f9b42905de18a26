import ComputeArray.Proofs.Memory.Run

/-!
# Arrays with a single copy

That an array has a copy on the host and another one on the device does not show. Readers get the
content, submissions find it on the device, what is stored goes into it, and nothing else but the
passes and copies of a submission changes it. `singleCopy_of_run` says so of every state that a run
of direct steps passes through, whatever the passes compute.
-/

set_option autoImplicit false

namespace ComputeArray

open Engine

namespace Engine

/-- The copies of an array cannot be told apart from its content. -/
structure SingleCopy (engine : Engine) : Prop where
  exclusive : ∀ buffer array, engine.arrays.lookup buffer = some array →
    ¬ (array.hostDirty = true ∧ array.deviceDirty = true)
  agreeing : ∀ buffer array, engine.arrays.lookup buffer = some array →
    array.hostDirty = false → array.deviceDirty = false →
      array.storage.Same (engine.device.bytesOf buffer)
  elements : engine.lost = none → ∀ buffer array, engine.arrays.lookup buffer = some array →
    outcomeOf (Action.readElements buffer) engine = (engine.single buffer).viewElements
  element : engine.lost = none → ∀ buffer array, engine.arrays.lookup buffer = some array →
    ∀ index, outcomeOf (Action.getElement buffer index) engine =
      (engine.single buffer).elementAt index
  sentOnce : ∀ buffer,
    outcomeOf (do Action.send buffer; Action.send buffer) engine =
        outcomeOf (Action.send buffer) engine ∧
      stateAfter (do Action.send buffer; Action.send buffer) engine =
        stateAfter (Action.send buffer) engine
  loadedOnce : ∀ buffer,
    outcomeOf (do Action.loadBlocking buffer; Action.loadBlocking buffer) engine =
        outcomeOf (Action.loadBlocking buffer) engine ∧
      stateAfter (do Action.loadBlocking buffer; Action.loadBlocking buffer) engine =
        stateAfter (Action.loadBlocking buffer) engine

/-- What a primitive does to arrays with a single copy: the passes of a submission find the content
of what they read on the device, stores go into the content, and no array changes its content that
is not touched. -/
structure ActsOnContent (engine : Engine) (primitive : Primitive) : Prop where
  bound : ∀ dispatches helpers copies, primitive = .submit dispatches helpers copies →
    ∀ commands, outcomeOf (Action.prepare dispatches copies) engine = .ok commands →
      ∀ buffer ∈ readBy dispatches,
        (stateAfter (Action.prepare dispatches copies) engine).device.bytesOf buffer =
          engine.content buffer
  stored : engine.lost = none → ∀ buffer update, primitive.stored? = some (buffer, update) →
    ∀ array, engine.arrays.lookup buffer = some array →
      outcomeOf primitive.action engine = (update (engine.single buffer)).map (fun _ ↦ ⟨⟩) ∧
        ∀ stored, update (engine.single buffer) = .ok stored →
          ((engine.after primitive).content buffer).Same stored.storage
  kept : ∀ buffer old new, engine.arrays.lookup buffer = some old →
    (engine.after primitive).arrays.lookup buffer = some new → ¬ primitive.Touches buffer →
      (engine.after primitive).content buffer = engine.content buffer

theorem Coherent.singleCopy {engine : Engine} (h : engine.Coherent) : engine.SingleCopy where
  exclusive buffer array hlookup := (h buffer array hlookup).exclusive
  agreeing buffer array hlookup := (h buffer array hlookup).agreeing
  elements hactive _ _ hlookup := readElements_eq_view h hactive hlookup
  element hactive _ _ hlookup index := getElement_eq_elementAt h hactive hlookup index
  sentOnce := send_send engine
  loadedOnce := loadBlocking_loadBlocking engine

theorem Coherent.actsOnContent {engine : Engine} {primitive : Primitive} (h : engine.Coherent)
    (hfaithful : engine.FaithfulCaches) (hproper : primitive.Proper) :
    engine.ActsOnContent primitive where
  bound := by
    rintro dispatches helpers copies rfl commands hcommands buffer hread
    exact bytesOf_of_prepare h hcommands hread
  stored := by
    intro hactive buffer update hstored array hlookup
    cases primitive with
    | setValue target value index =>
      cases hstored
      exact loadThenUpdate_eq_stored (fun array ↦ array.storesBy_setValue index value) h hactive
        hlookup
    | setElements target values =>
      cases hstored
      exact loadThenUpdate_eq_stored (fun array ↦ array.storesBy_setAll values) h hactive hlookup
    | _ => cases hstored
  kept := by
    intro buffer old new hold hnew htouches
    refine ((steady_after hproper hfaithful h).2 buffer new hnew ?_).2
    rintro (htouched | hfresh)
    · exact htouches htouched
    · have hle := (h buffer old hold).le
      omega

end Engine

namespace Workspace

/-- A step takes the engine through primitives that act on the content of arrays with a single copy;
unless the step is there to store elements, none of them stores any. -/
def KeepsSingleCopy (workspace : Workspace) (step : Step) : Prop :=
  ∃ primitives : List Primitive,
    (workspace.afterStep step).engine = workspace.engine.afterAll primitives ∧
    (∀ primitive ∈ primitives, primitive.Proper ∧ (primitive.Stores → step.Stores)) ∧
    (∀ before after, primitives = before ++ after →
      (workspace.engine.afterAll before).SingleCopy) ∧
    ∀ before primitive after, primitives = before ++ primitive :: after →
      (workspace.engine.afterAll before).ActsOnContent primitive

/-- The primitives of a direct step are proper, and store only if the step does. -/
theorem exists_primitives {step : Step} (hstep : step.IsDirect) (workspace : Workspace) :
    ∃ primitives : List Primitive,
      (workspace.afterStep step).engine = workspace.engine.afterAll primitives ∧
      ∀ primitive ∈ primitives, primitive.Proper ∧ (primitive.Stores → step.Stores) := by
  by_cases hstores : step.Stores
  · obtain ⟨primitives, hproper, hleads⟩ := leads_step hstep workspace
    exact ⟨primitives, hleads, fun primitive hmem ↦ ⟨hproper primitive hmem, fun _ ↦ hstores⟩⟩
  · obtain ⟨primitives, hcomputes, hleads⟩ := leads_step_of_not_stores hstep hstores workspace
    refine ⟨primitives, hleads, fun primitive hmem ↦ ?_⟩
    obtain ⟨hproper, hnot⟩ := hcomputes primitive hmem
    exact ⟨hproper, fun h ↦ absurd h hnot⟩

end Workspace

/-- Along every run of direct steps, whatever the passes compute, all arrays have a single copy. -/
theorem singleCopy_of_run (computing : Computing) (features : List String) (limits : Limits)
    (destroyFailure : Option String) (options : Options) {steps : List Step} {step : Step}
    (hsteps : ∀ earlier ∈ steps, earlier.IsDirect) (hstep : step.IsDirect) :
    ((Workspace.create (.createWith computing features limits destroyFailure) options).afterSteps
      steps).KeepsSingleCopy step := by
  set start := Workspace.create (.createWith computing features limits destroyFailure) options
  obtain ⟨earlier, hearlier, hreached⟩ := leads_steps hsteps start
  have hstart : (start.afterSteps steps).engine.Coherent ∧
      (start.afterSteps steps).engine.FaithfulCaches := by
    rw [hreached]
    exact coherent_afterAll hearlier (coherent_create _ _) (faithfulCaches_create _ _ _ _ _)
  obtain ⟨primitives, hleads, hprimitives⟩ :=
    (start.afterSteps steps).exists_primitives hstep
  have hreach : ∀ before after, primitives = before ++ after →
      ((start.afterSteps steps).engine.afterAll before).Coherent ∧
        ((start.afterSteps steps).engine.afterAll before).FaithfulCaches := by
    rintro before after rfl
    exact coherent_afterAll
      (fun primitive hmem ↦ (hprimitives primitive (List.mem_append_left _ hmem)).1)
      hstart.1 hstart.2
  refine ⟨primitives, hleads, hprimitives, fun before after hsplit ↦ ?_,
    fun before primitive after hsplit ↦ ?_⟩
  · exact (hreach before after hsplit).1.singleCopy
  · obtain ⟨hcoherent, hfaithful⟩ := hreach before (primitive :: after) hsplit
    have hmem : primitive ∈ primitives := by simp [hsplit]
    exact hcoherent.actsOnContent hfaithful (hprimitives primitive hmem).1

/-- Stores ones in a new array of two elements. -/
def storingSteps : List Step :=
  [.make (.layout (.value (.int 2)) (.value (.text "f32")) (.value .none)) (some "a"),
    .set "a" (.value (.int 1)) []]

/-- Adds the array to itself. -/
def addingStep : Step :=
  .make (.elementwise "add" ⟨[.reference "a", .reference "a"], none⟩) (some "b")

/-- The workspace after the stores, on a device whose passes write ones everywhere. -/
def storedWorkspace : Workspace :=
  (Workspace.create (.createWith (fun _ _ held ↦ held.map fun _ ↦ .ofArray #[1, 1, 1, 1]) []
    ⟨256, 256, 65535⟩ none) ⟨.highPerformance, .bool true, 256, .none⟩).afterSteps storingSteps

/-- The host copy has news, and adding the array to itself puts news of the sum on the device. -/
theorem singleCopy_of_run_adding :
    (storedWorkspace.engine.array 1).hostDirty = true ∧
      ((storedWorkspace.afterStep addingStep).engine.array 2).deviceDirty = true ∧
      storedWorkspace.KeepsSingleCopy addingStep := by
  refine ⟨by decide +kernel, by decide +kernel, singleCopy_of_run _ _ _ _ _ ?_ trivial⟩
  intro earlier hmem
  simp only [storingSteps, List.mem_cons, List.not_mem_nil, or_false] at hmem
  rcases hmem with rfl | rfl <;> trivial

end ComputeArray
