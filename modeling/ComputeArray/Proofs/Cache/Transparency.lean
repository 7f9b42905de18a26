import ComputeArray.Proofs.Cache.Run

/-!
# What caching changes

Pipelines come from caches, so it matters what an encoded pass really runs. `encode_pipeline` says
it for every dispatch of every submission, whatever the engine did before: the pipeline's module was
compiled from the source of the dispatch, its layout has the modes of the dispatch, and its
constants are those of the dispatch in some order unless the request is `Confused`: a pipeline is
kept whose constants are equal to those of the request as numbers, but not the same. Zeros of both
signs are such constants (`encode_pipeline_of_zeros`).
-/

set_option autoImplicit false

namespace ComputeArray

open Engine

namespace Action

/-- The part of a submission before its dispatch with the given number. -/
def prepareFirst (dispatches : List Dispatch) (count : Nat) : Action (List Command) := do
  beginEncoding dispatches
  (dispatches.take count).mapM encode

end Action

/-- A submission encodes each dispatch in the state its first part leaves. -/
theorem prepare_eq_prepareFirst_bind (dispatches : List Dispatch) (copies : List (Nat × Nat))
    (k : Nat) (hk : k < dispatches.length) :
    Action.prepare dispatches copies = (do
      let first ← Action.prepareFirst dispatches k
      let pass ← Action.encode dispatches[k]
      let later ← (dispatches.drop (k + 1)).mapM Action.encode
      let moves ← copies.mapM Action.encodeCopy
      return first ++ pass :: later ++ moves) := by
  have hsplit : dispatches.mapM Action.encode =
      (dispatches.take k ++ dispatches[k] :: dispatches.drop (k + 1)).mapM Action.encode := by
    rw [List.getElem_cons_drop, List.take_append_drop]
  unfold Action.prepare Action.prepareFirst
  rw [hsplit, List.mapM_append, List.mapM_cons]
  simp only [bind_assoc, pure_bind]

namespace Engine

/-- A pipeline is kept that is the requested one to the cache, but has other constants. -/
def Confused (engine : Engine) (source signature : String) (constants : List (String × Value)) :
    Prop :=
  ∃ entry, (engine.tunedPipelines.find? fun (kept, _) ↦
      kept.same (TunedKey.make source signature constants)) = some entry ∧
    ¬ entry.1.constants.Perm constants

theorem settledConstants_perm_iff (engine : Engine) (source signature : String)
    (constants : List (String × Value)) :
    (engine.settledConstants source signature constants).Perm constants ↔
      ¬ engine.Confused source signature constants := by
  unfold settledConstants Confused
  cases hfind : engine.tunedPipelines.find? fun (kept, _) ↦
      kept.same (TunedKey.make source signature constants) with
  | none => simp
  | some entry => simp

/-- Settled constants are those of the request, or the same to the cache. -/
theorem settledConstants_same (engine : Engine) (source signature : String)
    (constants : List (String × Value)) :
    engine.settledConstants source signature constants = constants ∨
      TunedKey.sameConstants (engine.settledConstants source signature constants)
        (constants.mergeSort fun a b ↦ a.1 ≤ b.1) = true := by
  unfold settledConstants
  split
  · next kept pipeline hfind =>
    have hsame := List.find?_some hfind
    exact .inr (TunedKey.same_make_iff.mp hsame).2.2
  · exact .inl rfl

end Engine

theorem caching_prepareFirst (dispatches : List Dispatch) (count : Nat) :
    Moves Caching (Action.prepareFirst dispatches count) :=
  .bind (caching_beginEncoding dispatches) fun _ ↦
    .mapM _ fun dispatch _ ↦ caching_encode dispatch

/-- The engine in which a submission encodes its dispatch with number `k`: a run of steps has come
before, then `primitives` of the step under way, then the first part of the submission. -/
def encodingEngine (device : Device) (options : Options) (steps : List Step)
    (primitives : List Primitive) (dispatches : List Dispatch) (k : Nat) : Engine :=
  stateAfter (Action.prepareFirst dispatches k)
    (((Workspace.create device options).afterSteps steps).engine.afterAll primitives)

theorem faithfulCaches_encodingEngine (computing : Computing) (features : List String)
    (limits : Limits) (destroyFailure : Option String) (options : Options) (steps : List Step)
    (primitives : List Primitive) (dispatches : List Dispatch) (k : Nat) :
    (encodingEngine (.createWith computing features limits destroyFailure) options steps primitives
      dispatches k).FaithfulCaches := by
  have hnew := faithfulCaches_create computing features limits destroyFailure options
  obtain ⟨before, -, hbefore⟩ := leads_any_steps steps
    (Workspace.create (.createWith computing features limits destroyFailure) options)
  obtain ⟨hsteps, -⟩ := caching_afterAll before _ hnew
  have hrun : ((Workspace.create (.createWith computing features limits destroyFailure)
      options).afterSteps steps).engine.FaithfulCaches := hbefore ▸ hsteps
  obtain ⟨hprimitives, -⟩ := caching_afterAll primitives _ hrun
  exact (caching_prepareFirst dispatches k _ hprimitives).1

/-- What the pipeline of an encoded dispatch was made of, after any run: a module compiled from the
source of the dispatch, the layout that is bound, which has the entries for the modes of the
dispatch, and constants that are those of the dispatch in some order exactly if the engine did not
confuse the request with an earlier one. Confused constants are still the same to the cache. -/
theorem encode_pipeline (computing : Computing) (features : List String) (limits : Limits)
    (destroyFailure : Option String) (options : Options) (steps : List Step)
    (primitives : List Primitive) (dispatches : List Dispatch) (k : Nat)
    (hk : k < dispatches.length) (command : Command)
    (hencode : outcomeOf (Action.encode dispatches[k])
      (encodingEngine (.createWith computing features limits destroyFailure) options steps
        primitives dispatches k) = .ok command) :
    let engine := encodingEngine (.createWith computing features limits destroyFailure) options
      steps primitives dispatches k
    let device := (stateAfter (Action.encode dispatches[k]) engine).device
    let signature := signatureOf dispatches[k].modes
    ∃ pipeline layout buffers groups parts,
      command = .dispatch pipeline layout buffers groups ∧
      numbered device.pipelines pipeline = some parts ∧
      numbered device.modules parts.module = some dispatches[k].source ∧
      parts.layout = layout ∧
      numbered device.layouts layout = some (entriesOf dispatches[k].modes) ∧
      (parts.constants.Perm dispatches[k].constants ↔
        ¬ engine.Confused dispatches[k].source signature dispatches[k].constants) ∧
      (parts.constants.Perm dispatches[k].constants ∨
        ∃ same, parts.constants.Perm same ∧
          TunedKey.sameConstants same
            (dispatches[k].constants.mergeSort fun a b ↦ a.1 ≤ b.1) = true) := by
  intro engine device signature
  have hfaithful := faithfulCaches_encodingEngine computing features limits destroyFailure options
    steps primitives dispatches k
  obtain ⟨pipeline, layout, buffers, groups, hcommand, hafter, hlayout, -, parts, hparts, hmodule,
    hparts', hconstants⟩ := encode_spec hfaithful hencode
  obtain ⟨modes, hentries, hsignature⟩ := hafter.layouts _ _ hlayout
  rw [(signatureOf_eq_iff _ _).mp hsignature] at hentries
  have hsettled := engine.settledConstants_perm_iff dispatches[k].source signature
    dispatches[k].constants
  refine ⟨pipeline, layout, buffers, groups, parts, hcommand, hparts,
    hafter.modules _ _ hmodule, ?_, hentries, ?_, ?_⟩
  · rw [hlayout] at hparts'
    exact (Option.some.inj hparts').symm
  · rw [← hsettled]
    exact ⟨hconstants.symm.trans, hconstants.trans⟩
  · rcases engine.settledConstants_same dispatches[k].source signature dispatches[k].constants with
      hsame | hsame
    · rw [hsame] at hconstants
      exact .inl hconstants
    · exact .inr ⟨_, hconstants, hsame⟩

/-- A pass without bindings that reads one constant, a zero. -/
def zeroPass (negative : Bool) : Dispatch :=
  ⟨"k", [], 1, [("rhs", .float ⟨if negative then 0x8000000000000000 else 0⟩)]⟩

/-- The engine that encodes a pass with one zero after it has submitted the one with the other. -/
def zerosEngine : Engine :=
  encodingEngine (.createWith (fun _ _ held ↦ held) [] ⟨256, 256, 65535⟩ none)
    ⟨.highPerformance, .bool true, 256, .none⟩ [] [.submit [zeroPass false] [] []]
    [zeroPass true] 0

/-- The pipeline an encoded pass runs on a device. -/
def pipelineOf? (device : Device) (outcome : Except Failure Command) : Option PipelineParts :=
  match outcome with
  | .ok (.dispatch pipeline _ _ _) => numbered device.pipelines pipeline
  | _ => none

theorem pipelineOf?_zerosEngine :
    (pipelineOf? (stateAfter (Action.encode (zeroPass true)) zerosEngine).device
      (outcomeOf (Action.encode (zeroPass true)) zerosEngine)).map
        (fun parts ↦ parts.constants.map fun constant ↦
          match constant.2 with
          | .float x => x.bits
          | _ => 1) = some [0] := by
  decide +kernel

/-- The pass with the negative zero is encoded, with the source and the layout it asks for. -/
theorem encode_pipeline_negativeZero :
    ∃ command, outcomeOf (Action.encode (zeroPass true)) zerosEngine = .ok command ∧
      ∃ pipeline layout buffers groups, ∃ parts : PipelineParts,
        command = .dispatch pipeline layout buffers groups ∧
        numbered (stateAfter (Action.encode (zeroPass true)) zerosEngine).device.modules
          parts.module = some "k" ∧ parts.layout = layout := by
  cases hencode : outcomeOf (Action.encode (zeroPass true)) zerosEngine with
  | error failure =>
    have hpipeline := pipelineOf?_zerosEngine
    rw [hencode] at hpipeline
    cases hpipeline
  | ok command =>
    obtain ⟨pipeline, layout, buffers, groups, parts, hcommand, -, hmodule, hlayout, -⟩ :=
      encode_pipeline (fun _ _ held ↦ held) [] ⟨256, 256, 65535⟩ none
        ⟨.highPerformance, .bool true, 256, .none⟩ [] [.submit [zeroPass false] [] []]
        [zeroPass true] 0 (by decide) command hencode
    exact ⟨command, rfl, pipeline, layout, buffers, groups, parts, hcommand, hmodule, hlayout⟩

/-- After a pass with a positive zero, one with a negative zero runs with the positive one. -/
theorem encode_pipeline_of_zeros :
    ∃ pipeline layout buffers groups parts,
      outcomeOf (Action.encode (zeroPass true)) zerosEngine =
        .ok (.dispatch pipeline layout buffers groups) ∧
      numbered (stateAfter (Action.encode (zeroPass true)) zerosEngine).device.pipelines pipeline =
        some parts ∧
      ¬ parts.constants.Perm (zeroPass true).constants := by
  have hpipeline := pipelineOf?_zerosEngine
  cases hencode : outcomeOf (Action.encode (zeroPass true)) zerosEngine with
  | error failure =>
    rw [hencode] at hpipeline
    cases hpipeline
  | ok command =>
    rw [hencode] at hpipeline
    cases command with
    | copy source target size => cases hpipeline
    | dispatch pipeline layout buffers groups =>
      obtain ⟨parts, hparts, hbits⟩ := Option.map_eq_some_iff.mp hpipeline
      refine ⟨pipeline, layout, buffers, groups, parts, rfl, hparts, fun hperm ↦ ?_⟩
      rw [List.perm_singleton.mp hperm] at hbits
      exact absurd hbits (by decide)

end ComputeArray
