import ComputeArray.Engine.Program
import ComputeArray.Proofs.Device.Objects
import ComputeArray.Proofs.Lookup
import ComputeArray.Proofs.Run.Elementary

/-!
# Faithful caches

The caches of an engine are faithful when each entry points to the object its key describes: a
layout with the signature's modes, a module compiled from the source, a pipeline made of the kept
layout, the kept module and the constants of its key. Creating layouts, modules and pipelines keeps
the caches faithful and never drops a layout or a module (`Moves Caching`), and what it gives is an
object that matches the request: exactly for layouts and modules, and for pipelines up to constants
that are the same to the cache (`serves_of_createPipeline`).
-/

set_option autoImplicit false

namespace ComputeArray

/-- A kept key is that of a request if the signature and the source are, and the constants in the
order of their names are the same to the cache. -/
theorem TunedKey.same_make_iff {kept : TunedKey} {source signature : String}
    {constants : List (String × Value)} :
    kept.same (TunedKey.make source signature constants) = true ↔
      kept.signature = signature ∧ kept.source = source ∧
        TunedKey.sameConstants kept.constants (constants.mergeSort fun a b ↦ a.1 ≤ b.1) = true := by
  unfold TunedKey.same TunedKey.make
  simp [and_assoc]

namespace Engine

/-- The pipeline is made of the layout kept for the signature, the module kept for the source, and
the constants in some order. -/
def Serves (engine : Engine) (pipeline : Nat) (source signature : String)
    (constants : List (String × Value)) : Prop :=
  ∃ parts, numbered engine.device.pipelines pipeline = some parts ∧
    engine.modules.lookup source = some parts.module ∧
    engine.layouts.lookup signature = some parts.layout ∧ parts.constants.Perm constants

/-- Every entry of a cache points to the object its key describes. -/
structure FaithfulCaches (engine : Engine) : Prop where
  layouts : ∀ signature layout, engine.layouts.lookup signature = some layout →
    ∃ modes, numbered engine.device.layouts layout = some (entriesOf modes) ∧
      signatureOf modes = signature
  modules : ∀ source module, engine.modules.lookup source = some module →
    numbered engine.device.modules module = some source
  pipelines : ∀ source signature pipeline,
    engine.pipelines.lookup (source, signature) = some pipeline →
      engine.Serves pipeline source signature []
  tuned : ∀ entry ∈ engine.tunedPipelines,
    engine.Serves entry.2 entry.1.source entry.1.signature entry.1.constants

/-- No layout or module is dropped from its cache, and no object from the device. -/
structure CachesGrow (before after : Engine) : Prop where
  device : before.device.Grows after.device
  layouts : ∀ signature layout, before.layouts.lookup signature = some layout →
    after.layouts.lookup signature = some layout
  modules : ∀ source module, before.modules.lookup source = some module →
    after.modules.lookup source = some module

theorem CachesGrow.refl (engine : Engine) : CachesGrow engine engine :=
  ⟨.refl _, fun _ _ h ↦ h, fun _ _ h ↦ h⟩

theorem CachesGrow.trans {first middle last : Engine} (hfirst : CachesGrow first middle)
    (hlast : CachesGrow middle last) : CachesGrow first last where
  device := hfirst.device.trans hlast.device
  layouts signature layout h := hlast.layouts signature layout (hfirst.layouts signature layout h)
  modules source module h := hlast.modules source module (hfirst.modules source module h)

instance : Std.Refl CachesGrow := ⟨CachesGrow.refl⟩

instance : IsTrans Engine CachesGrow := ⟨fun _ _ _ ↦ CachesGrow.trans⟩

theorem Serves.mono {before after : Engine} {pipeline : Nat} {source signature : String}
    {constants : List (String × Value)} (hgrow : CachesGrow before after)
    (h : before.Serves pipeline source signature constants) :
    after.Serves pipeline source signature constants := by
  obtain ⟨parts, hparts, hmodule, hlayout, hconstants⟩ := h
  exact ⟨parts, hgrow.device.pipelines _ _ hparts, hgrow.modules _ _ hmodule,
    hgrow.layouts _ _ hlayout, hconstants⟩

/-- Faithful caches stay faithful, and nothing is dropped that others rely on. -/
def Caching (before after : Engine) : Prop :=
  before.FaithfulCaches → after.FaithfulCaches ∧ CachesGrow before after

instance : Std.Refl Caching := ⟨fun engine h ↦ ⟨h, .refl engine⟩⟩

instance : IsTrans Engine Caching := by
  refine ⟨fun first middle last hfirst hlast h ↦ ?_⟩
  obtain ⟨hmiddle, hgrow⟩ := hfirst h
  obtain ⟨hlast, hgrow'⟩ := hlast hmiddle
  exact ⟨hlast, hgrow.trans hgrow'⟩

/-- The caches and the objects of the device they point to. -/
def caches (engine : Engine) :=
  (engine.layouts, engine.modules, engine.pipelines, engine.tunedPipelines,
    engine.device.objects)

/-- The caches are as they were. -/
def SameCaches (before after : Engine) : Prop := after.caches = before.caches

instance : Std.Refl SameCaches := ⟨fun _ ↦ rfl⟩

instance : IsTrans Engine SameCaches := ⟨fun _ _ _ hfirst hlast ↦ hlast.trans hfirst⟩

/-- What leaves the caches alone keeps them faithful. -/
theorem Caching.of_caches_eq {before after : Engine} (h : SameCaches before after) :
    Caching before after := by
  intro hfaithful
  simp only [SameCaches, caches, Device.objects, Prod.mk.injEq] at h
  obtain ⟨hlayouts, hmodules, hpipelines, htuned, hdlayouts, hdmodules, hdpipelines⟩ := h
  have hgrow : CachesGrow before after := by
    refine ⟨⟨?_, ?_, ?_⟩, ?_, ?_⟩
    · rw [hdlayouts]
      exact .refl _
    · rw [hdmodules]
      exact .refl _
    · rw [hdpipelines]
      exact .refl _
    · rw [hlayouts]
      exact fun _ _ h ↦ h
    · rw [hmodules]
      exact fun _ _ h ↦ h
  refine ⟨⟨?_, ?_, ?_, ?_⟩, hgrow⟩
  · rw [hlayouts, hdlayouts]
    exact hfaithful.layouts
  · rw [hmodules, hdmodules]
    exact hfaithful.modules
  · rw [hpipelines]
    exact fun source signature pipeline h ↦
      (hfaithful.pipelines source signature pipeline h).mono hgrow
  · rw [htuned]
    exact fun entry hmem ↦ (hfaithful.tuned entry hmem).mono hgrow

/-! ### Layouts -/

/-- The engine with a new layout kept for its signature. -/
def addLayout (modes : List Mode) (engine : Engine) : Engine :=
  { engine with
    device := (engine.device.createLayout ("BindGroupLayout-" ++ signatureOf modes)
      (entriesOf modes)).2
    layouts := engine.layouts ++ [(signatureOf modes, engine.device.layouts.size + 1)] }

/-- Creating a layout fails and changes nothing, finds the kept one, or keeps a new one. -/
theorem createLayout_cases (modes : List Mode) (engine : Engine) :
    (∃ failure, outcomeOf (Action.createLayout modes) engine = .error failure ∧
      stateAfter (Action.createLayout modes) engine = engine) ∨
    (∃ layout, engine.layouts.lookup (signatureOf modes) = some layout ∧
      outcomeOf (Action.createLayout modes) engine = .ok (signatureOf modes, layout) ∧
      stateAfter (Action.createLayout modes) engine = engine) ∨
    (engine.layouts.lookup (signatureOf modes) = none ∧
      outcomeOf (Action.createLayout modes) engine =
        .ok (signatureOf modes, engine.device.layouts.size + 1) ∧
      stateAfter (Action.createLayout modes) engine = engine.addLayout modes) := by
  simp only [Action.createLayout, outcomeOf_bind, stateAfter_bind, stateAfter_assertActive]
  cases outcomeOf Action.assertActive engine with
  | error failure => exact .inl ⟨failure, rfl, rfl⟩
  | ok active =>
    refine .inr ?_
    dsimp only [outcomeOf_get, stateAfter_get]
    cases hlookup : engine.layouts.lookup (signatureOf modes) with
    | some layout => exact .inl ⟨layout, rfl, rfl, rfl⟩
    | none => exact .inr ⟨rfl, rfl, rfl⟩

theorem caching_addLayout (modes : List Mode) (engine : Engine) :
    Caching engine (engine.addLayout modes) := by
  intro hfaithful
  have hgrow : CachesGrow engine (engine.addLayout modes) :=
    ⟨⟨.push _ _, .refl _, .refl _⟩,
      fun _ _ hlookup ↦ (List.prefix_append _ _).lookup_eq_some hlookup, fun _ _ h ↦ h⟩
  refine ⟨⟨?_, hfaithful.modules, ?_, ?_⟩, hgrow⟩
  · intro signature layout hlookup
    rcases lookup_of_lookup_append_singleton hlookup with hold | ⟨rfl, rfl⟩
    · obtain ⟨old, hmodes, hsignature⟩ := hfaithful.layouts signature layout hold
      exact ⟨old, numbered_push_of_numbered _ hmodes, hsignature⟩
    · exact ⟨modes, numbered_push_new _, rfl⟩
  · exact fun source signature pipeline hlookup ↦
      (hfaithful.pipelines source signature pipeline hlookup).mono hgrow
  · exact fun entry hmem ↦ (hfaithful.tuned entry hmem).mono hgrow

theorem caching_createLayout (modes : List Mode) : Moves Caching (Action.createLayout modes) := by
  intro engine
  rcases createLayout_cases modes engine with ⟨_, -, h⟩ | ⟨_, -, -, h⟩ | ⟨-, -, h⟩
  · rw [h]
    exact refl_of Caching engine
  · rw [h]
    exact refl_of Caching engine
  · rw [h]
    exact caching_addLayout modes engine

/-- The layout given for modes is the one kept for their signature from then on. -/
theorem lookup_of_createLayout {modes : List Mode} {engine : Engine} {signature : String}
    {layout : Nat}
    (h : outcomeOf (Action.createLayout modes) engine = .ok (signature, layout)) :
    signature = signatureOf modes ∧
      (stateAfter (Action.createLayout modes) engine).layouts.lookup (signatureOf modes) =
        some layout := by
  rcases createLayout_cases modes engine with
    ⟨_, houtcome, -⟩ | ⟨_, hlookup, houtcome, hstate⟩ | ⟨hlookup, houtcome, hstate⟩
  · rw [houtcome] at h
    cases h
  · rw [houtcome] at h
    cases h
    exact ⟨rfl, by rw [hstate]; exact hlookup⟩
  · rw [houtcome] at h
    cases h
    exact ⟨rfl, by rw [hstate]; exact lookup_append_singleton _ hlookup⟩

/-! ### Modules -/

theorem caches_review (source : String) (messages : List (String × String)) (engine : Engine) :
    (stateAfter (Action.review source messages) engine).caches = engine.caches := by
  induction messages generalizing engine with
  | nil => rfl
  | cons message rest ih =>
    obtain ⟨severity, text⟩ := message
    unfold Action.review
    by_cases herror : severity = "error"
    · rw [if_pos herror]
      rfl
    · rw [if_neg herror]
      exact ih _

/-- The engine with a module kept for a source. -/
def addModule (source : String) (module : Nat) (engine : Engine) : Engine :=
  { engine with modules := engine.modules ++ [(source, module)] }

theorem caching_addModule {source : String} {module : Nat} {engine : Engine}
    (hlookup : engine.modules.lookup source = none)
    (hmodule : numbered engine.device.modules module = some source) :
    Caching engine (engine.addModule source module) := by
  intro hfaithful
  have hgrow : CachesGrow engine (engine.addModule source module) :=
    ⟨.refl _, fun _ _ h ↦ h,
      fun _ _ hold ↦ (List.prefix_append _ _).lookup_eq_some hold⟩
  refine ⟨⟨hfaithful.layouts, ?_, ?_, ?_⟩, hgrow⟩
  · intro other found hfound
    rcases lookup_of_lookup_append_singleton hfound with hold | ⟨rfl, rfl⟩
    · exact hfaithful.modules other found hold
    · exact hmodule
  · exact fun source signature pipeline hlookup ↦
      (hfaithful.pipelines source signature pipeline hlookup).mono hgrow
  · exact fun entry hmem ↦ (hfaithful.tuned entry hmem).mono hgrow

/-- A device that only grows leaves the caches faithful. -/
theorem caching_device {engine : Engine} {device : Device} (h : engine.device.Grows device) :
    Caching engine { engine with device } := by
  intro hfaithful
  have hgrow : CachesGrow engine { engine with device } :=
    ⟨h, fun _ _ h ↦ h, fun _ _ h ↦ h⟩
  refine ⟨⟨?_, ?_, ?_, ?_⟩, hgrow⟩
  · intro signature layout hlookup
    obtain ⟨modes, hmodes, hsignature⟩ := hfaithful.layouts signature layout hlookup
    exact ⟨modes, h.layouts layout (entriesOf modes) hmodes, hsignature⟩
  · exact fun source module hlookup ↦
      h.modules module source (hfaithful.modules source module hlookup)
  · exact fun source signature pipeline hlookup ↦
      (hfaithful.pipelines source signature pipeline hlookup).mono hgrow
  · exact fun entry hmem ↦ (hfaithful.tuned entry hmem).mono hgrow

theorem grows_compile (source : String) (device : Device) :
    device.Grows (device.compile source).2 := by
  cases h : (device.compile source).1 with
  | error message =>
    rw [(Device.compile_eq_error h).2]
    exact ⟨.refl _, .refl _, .refl _⟩
  | ok accepted =>
    obtain ⟨module, messages⟩ := accepted
    rw [(Device.compile_eq_ok h).2.2]
    exact ⟨.refl _, .push _ _, .refl _⟩

/-- Compiling fails, or keeps a module that the device has compiled from the source. -/
theorem compileModule_cases (source : String) (engine : Engine) :
    (∃ failure, outcomeOf (Action.compileModule source) engine = .error failure ∧
      Caching engine (stateAfter (Action.compileModule source) engine)) ∨
    (∃ module, ∃ compiled : Engine, compiled.modules = engine.modules ∧
      numbered compiled.device.modules module = some source ∧ Caching engine compiled ∧
      outcomeOf (Action.compileModule source) engine = .ok module ∧
      stateAfter (Action.compileModule source) engine = compiled.addModule source module) := by
  have hcompiled := caching_device (grows_compile source engine.device)
  simp only [Action.compileModule, outcomeOf_bind, stateAfter_bind, outcomeOf_onDevice,
    stateAfter_onDevice]
  cases hresult : (engine.device.compile source).1 with
  | error message => exact .inl ⟨_, rfl, hcompiled⟩
  | ok accepted =>
    obtain ⟨module, messages⟩ := accepted
    obtain ⟨-, hmodule, hdevice⟩ := Device.compile_eq_ok hresult
    simp only [outcomeOf_bind, stateAfter_bind]
    set start : Engine := { engine with device := (engine.device.compile source).2 } with hstart
    have hcaches := caches_review source messages start
    have hreviewed := trans_of Caching hcompiled (.of_caches_eq hcaches)
    cases outcomeOf (Action.review source messages) start with
    | error failure => exact .inl ⟨failure, rfl, hreviewed⟩
    | ok reviewed =>
      simp only [caches, Device.objects, Prod.mk.injEq] at hcaches
      refine .inr ⟨module, _, hcaches.2.1, ?_, hreviewed, rfl, rfl⟩
      rw [hcaches.2.2.2.2.2.1, hstart, hdevice, hmodule]
      exact numbered_push_new source

/-- Creating a module fails, finds the kept one, or keeps one compiled from the source. -/
theorem createModule_cases (source : String) (engine : Engine) :
    (∃ failure, outcomeOf (Action.createModule source) engine = .error failure ∧
      Caching engine (stateAfter (Action.createModule source) engine)) ∨
    (∃ module, engine.modules.lookup source = some module ∧
      outcomeOf (Action.createModule source) engine = .ok module ∧
      stateAfter (Action.createModule source) engine = engine) ∨
    (∃ module, ∃ compiled : Engine, compiled.modules.lookup source = none ∧
      numbered compiled.device.modules module = some source ∧ Caching engine compiled ∧
      outcomeOf (Action.createModule source) engine = .ok module ∧
      stateAfter (Action.createModule source) engine = compiled.addModule source module) := by
  simp only [Action.createModule, outcomeOf_bind, stateAfter_bind, stateAfter_assertActive]
  cases outcomeOf Action.assertActive engine with
  | error failure => exact .inl ⟨failure, rfl, refl_of Caching engine⟩
  | ok checked =>
    simp only [outcomeOf_get, stateAfter_get]
    cases hlookup : engine.modules.lookup source with
    | some module => exact .inr (.inl ⟨module, rfl, rfl, rfl⟩)
    | none =>
      rcases compileModule_cases source engine with hfailed | ⟨module, compiled, hmodules, h⟩
      · exact .inl hfailed
      · exact .inr (.inr ⟨module, compiled, by rw [hmodules, hlookup], h⟩)

theorem caching_createModule (source : String) : Moves Caching (Action.createModule source) := by
  intro engine
  rcases createModule_cases source engine with
    ⟨_, -, h⟩ | ⟨_, -, -, h⟩ | ⟨_, _, hlookup, hmodule, hcompiled, -, h⟩
  · exact h
  · rw [h]
    exact refl_of Caching engine
  · rw [h]
    exact trans_of Caching hcompiled (caching_addModule hlookup hmodule)

/-- The module given for a source is the one kept for it from then on. -/
theorem lookup_of_createModule {source : String} {engine : Engine} {module : Nat}
    (h : outcomeOf (Action.createModule source) engine = .ok module) :
    (stateAfter (Action.createModule source) engine).modules.lookup source = some module := by
  rcases createModule_cases source engine with
    ⟨_, houtcome, -⟩ | ⟨_, hlookup, houtcome, hstate⟩ | ⟨_, _, hlookup, -, -, houtcome, hstate⟩
  · rw [houtcome] at h
    cases h
  · rw [houtcome] at h
    cases h
    rwa [hstate]
  · rw [houtcome] at h
    cases h
    rw [hstate]
    exact lookup_append_singleton _ hlookup

/-! ### Pipelines -/

/-- A new pipeline is made of the kept module and layout, and of the constants asked for. -/
theorem buildPipeline_spec {source signature : String} {layout : Nat}
    (constants : List (String × Value)) {engine : Engine} (hfaithful : engine.FaithfulCaches)
    (hlayout : engine.layouts.lookup signature = some layout) :
    (stateAfter (Action.buildPipeline source layout constants) engine).FaithfulCaches ∧
      CachesGrow engine (stateAfter (Action.buildPipeline source layout constants) engine) ∧
      ∀ pipeline,
        outcomeOf (Action.buildPipeline source layout constants) engine = .ok pipeline →
          (stateAfter (Action.buildPipeline source layout constants) engine).Serves pipeline source
            signature constants := by
  obtain ⟨hmiddle, hgrow⟩ := caching_createModule source engine hfaithful
  have hlookup := @lookup_of_createModule source engine
  simp only [Action.buildPipeline, outcomeOf_bind, stateAfter_bind]
  cases hmodule : outcomeOf (Action.createModule source) engine with
  | error failure => exact ⟨hmiddle, hgrow, fun _ h ↦ by cases h⟩
  | ok module =>
    set middle := stateAfter (Action.createModule source) engine
    have hpushed : middle.device.Grows (middle.device.createPipeline layout module constants).2 :=
      ⟨.refl _, .refl _, .push _ _⟩
    obtain ⟨hafter, hlast⟩ := caching_device hpushed hmiddle
    refine ⟨hafter, hgrow.trans hlast, fun pipeline h ↦ ?_⟩
    cases h
    exact ⟨⟨layout, module, constants⟩, numbered_push_new _, hlookup hmodule,
      hgrow.layouts _ _ hlayout, .refl _⟩

/-- The constants of the kept pipeline that is found for a request, or those of the request if none
is found. -/
def settledConstants (engine : Engine) (source signature : String)
    (constants : List (String × Value)) : List (String × Value) :=
  match engine.tunedPipelines.find? fun (kept, _) ↦
      kept.same (TunedKey.make source signature constants) with
  | some (kept, _) => kept.constants
  | none => constants

theorem settledConstants_createLayout (modes : List Mode) (engine : Engine)
    (source signature : String) (constants : List (String × Value)) :
    (stateAfter (Action.createLayout modes) engine).settledConstants source signature constants =
      engine.settledConstants source signature constants := by
  rcases createLayout_cases modes engine with ⟨_, -, h⟩ | ⟨_, -, -, h⟩ | ⟨-, -, h⟩
  · rw [h]
  · rw [h]
  · rw [h]
    rfl

theorem caching_touch (key : TunedKey) (engine : Engine) : Caching engine (engine.touch key) := by
  intro hfaithful
  have hgrow : CachesGrow engine (engine.touch key) := ⟨.refl _, fun _ _ h ↦ h, fun _ _ h ↦ h⟩
  refine ⟨⟨hfaithful.layouts, hfaithful.modules, ?_, ?_⟩, hgrow⟩
  · exact fun source signature pipeline hlookup ↦
      (hfaithful.pipelines source signature pipeline hlookup).mono hgrow
  · intro entry hmem
    have hold : entry ∈ engine.tunedPipelines := by
      simp only [touch, List.partition_eq_filter_filter, List.mem_append, List.mem_filter] at hmem
      rcases hmem with hmem | hmem
      · exact hmem.1
      · exact hmem.1
    exact (hfaithful.tuned entry hold).mono hgrow

theorem caching_keepTuned {key : TunedKey} {pipeline : Nat} {engine : Engine}
    (h : engine.Serves pipeline key.source key.signature key.constants) :
    Caching engine (engine.keepTuned key pipeline) := by
  intro hfaithful
  have hgrow : CachesGrow engine (engine.keepTuned key pipeline) :=
    ⟨.refl _, fun _ _ h ↦ h, fun _ _ h ↦ h⟩
  refine ⟨⟨hfaithful.layouts, hfaithful.modules, ?_, ?_⟩, hgrow⟩
  · exact fun source signature pipeline hlookup ↦
      (hfaithful.pipelines source signature pipeline hlookup).mono hgrow
  · intro entry hmem
    have hkept : entry ∈ engine.tunedPipelines ++ [(key, pipeline)] := by
      simp only [keepTuned] at hmem
      split at hmem
      · exact List.mem_of_mem_drop hmem
      · exact hmem
    rcases List.mem_append.mp hkept with hold | hnew
    · exact (hfaithful.tuned entry hold).mono hgrow
    · obtain rfl := List.mem_singleton.mp hnew
      exact h.mono hgrow

theorem caching_keepPlain {source signature : String} {pipeline : Nat} {engine : Engine}
    (h : engine.Serves pipeline source signature []) :
    Caching engine { engine with
      pipelines := engine.pipelines ++ [((source, signature), pipeline)] } := by
  intro hfaithful
  have hgrow : CachesGrow engine { engine with
      pipelines := engine.pipelines ++ [((source, signature), pipeline)] } :=
    ⟨.refl _, fun _ _ h ↦ h, fun _ _ h ↦ h⟩
  refine ⟨⟨hfaithful.layouts, hfaithful.modules, ?_, ?_⟩, hgrow⟩
  · intro wanted signature' found hfound
    rcases lookup_of_lookup_append_singleton hfound with hold | ⟨heq, rfl⟩
    · exact (hfaithful.pipelines wanted signature' found hold).mono hgrow
    · obtain ⟨rfl, rfl⟩ := Prod.mk.inj heq
      exact h.mono hgrow
  · exact fun entry hmem ↦ (hfaithful.tuned entry hmem).mono hgrow

theorem plainPipeline_spec {source signature : String} {layout : Nat} {engine : Engine}
    (hfaithful : engine.FaithfulCaches)
    (hlayout : engine.layouts.lookup signature = some layout) :
    (stateAfter (Action.plainPipeline source signature layout) engine).FaithfulCaches ∧
      CachesGrow engine (stateAfter (Action.plainPipeline source signature layout) engine) ∧
      ∀ pipeline, outcomeOf (Action.plainPipeline source signature layout) engine = .ok pipeline →
        (stateAfter (Action.plainPipeline source signature layout) engine).Serves pipeline source
          signature [] := by
  simp only [Action.plainPipeline, outcomeOf_bind, stateAfter_bind, outcomeOf_get, stateAfter_get]
  cases hlookup : engine.pipelines.lookup (source, signature) with
  | some kept =>
    refine ⟨hfaithful, .refl engine, fun pipeline h ↦ ?_⟩
    cases h
    exact hfaithful.pipelines source signature kept hlookup
  | none =>
    obtain ⟨hbuilt, hgrow, hserves⟩ := buildPipeline_spec [] hfaithful hlayout
    simp only [outcomeOf_bind, stateAfter_bind]
    cases hpipeline : outcomeOf (Action.buildPipeline source layout []) engine with
    | error failure => exact ⟨hbuilt, hgrow, fun _ h ↦ by cases h⟩
    | ok pipeline =>
      obtain ⟨hafter, hlast⟩ := caching_keepPlain (hserves pipeline hpipeline) hbuilt
      refine ⟨hafter, hgrow.trans hlast, fun _ h ↦ ?_⟩
      cases h
      exact (hserves pipeline hpipeline).mono hlast

theorem tunedPipeline_spec {source signature : String} {layout : Nat}
    (constants : List (String × Value)) {engine : Engine} (hfaithful : engine.FaithfulCaches)
    (hlayout : engine.layouts.lookup signature = some layout) :
    (stateAfter (Action.tunedPipeline source signature layout constants) engine).FaithfulCaches ∧
      CachesGrow engine
        (stateAfter (Action.tunedPipeline source signature layout constants) engine) ∧
      ∀ pipeline,
        outcomeOf (Action.tunedPipeline source signature layout constants) engine = .ok pipeline →
          (stateAfter (Action.tunedPipeline source signature layout constants) engine).Serves
            pipeline source signature (engine.settledConstants source signature constants) := by
  simp only [Action.tunedPipeline, outcomeOf_bind, stateAfter_bind, outcomeOf_actionOfExcept,
    stateAfter_actionOfExcept]
  cases TunedKey.check constants with
  | error failure => exact ⟨hfaithful, .refl engine, fun _ h ↦ by cases h⟩
  | ok checked =>
    simp only [outcomeOf_get, stateAfter_get]
    simp only [tunedPipeline?, settledConstants]
    cases hfind : engine.tunedPipelines.find? fun (kept, _) ↦
        kept.same (TunedKey.make source signature constants) with
    | some entry =>
      obtain ⟨hafter, hgrow⟩ :=
        caching_touch (TunedKey.make source signature constants) engine hfaithful
      refine ⟨hafter, hgrow, fun pipeline h ↦ ?_⟩
      cases h
      have hsame := List.find?_some hfind
      obtain ⟨hsignature, hsource, -⟩ := TunedKey.same_make_iff.mp hsame
      have hserves := hfaithful.tuned entry (List.mem_of_find?_eq_some hfind)
      rw [hsignature, hsource] at hserves
      exact hserves.mono hgrow
    | none =>
      obtain ⟨hbuilt, hgrow, hserves⟩ := buildPipeline_spec constants hfaithful hlayout
      simp only [Option.map_none, outcomeOf_bind, stateAfter_bind]
      cases hpipeline : outcomeOf (Action.buildPipeline source layout constants) engine with
      | error failure => exact ⟨hbuilt, hgrow, fun _ h ↦ by cases h⟩
      | ok pipeline =>
        have hnew := hserves pipeline hpipeline
        set key := TunedKey.make source signature constants with hmake
        have hkey : (stateAfter (Action.buildPipeline source layout constants) engine).Serves
            pipeline key.source key.signature key.constants := by
          obtain ⟨parts, hparts, hmodule, hlayout', hconstants⟩ := hnew
          exact ⟨parts, hparts, hmodule, hlayout',
            hconstants.trans (List.mergeSort_perm _ _).symm⟩
        obtain ⟨hafter, hlast⟩ := caching_keepTuned hkey hbuilt
        refine ⟨hafter, hgrow.trans hlast, fun _ h ↦ ?_⟩
        cases h
        exact hnew.mono hlast

/-- Without constants nothing but the request itself can settle them. -/
theorem settledConstants_nil (engine : Engine) (source signature : String) :
    engine.settledConstants source signature [] = [] := by
  unfold settledConstants
  split
  · next kept pipeline hfind =>
    have hsame := List.find?_some hfind
    obtain ⟨-, -, hconstants⟩ := TunedKey.same_make_iff.mp hsame
    rw [List.mergeSort_nil] at hconstants
    cases hkept : kept.constants with
    | nil => rfl
    | cons first rest =>
      obtain ⟨name, value⟩ := first
      rw [hkept] at hconstants
      cases hconstants
  · rfl

/-- The pipeline for a request serves it with the settled constants. -/
theorem pipelineFor_spec (source : String) {signature : String} {layout : Nat}
    (constants : List (String × Value)) {engine : Engine} (hfaithful : engine.FaithfulCaches)
    (hlayout : engine.layouts.lookup signature = some layout) :
    (stateAfter (Action.pipelineFor source signature layout constants) engine).FaithfulCaches ∧
      CachesGrow engine
        (stateAfter (Action.pipelineFor source signature layout constants) engine) ∧
      ∀ pipeline,
        outcomeOf (Action.pipelineFor source signature layout constants) engine = .ok pipeline →
          (stateAfter (Action.pipelineFor source signature layout constants) engine).Serves
            pipeline source signature (engine.settledConstants source signature constants) := by
  unfold Action.pipelineFor
  by_cases hempty : constants.isEmpty = true
  · obtain rfl := List.isEmpty_iff.mp hempty
    rw [if_pos hempty, settledConstants_nil]
    exact plainPipeline_spec hfaithful hlayout
  · rw [if_neg hempty]
    exact tunedPipeline_spec constants hfaithful hlayout

/-- The pipeline created for a source, modes and constants serves the request with the settled
constants, and the layout beside it is the one kept for the modes. -/
theorem createPipeline_spec (source : String) (modes : List Mode)
    (constants : List (String × Value)) {engine : Engine} (hfaithful : engine.FaithfulCaches) :
    (stateAfter (Action.createPipeline source modes constants) engine).FaithfulCaches ∧
      CachesGrow engine (stateAfter (Action.createPipeline source modes constants) engine) ∧
      ∀ pipeline layout,
        outcomeOf (Action.createPipeline source modes constants) engine =
            .ok (pipeline, layout) →
          (stateAfter (Action.createPipeline source modes constants) engine).layouts.lookup
              (signatureOf modes) = some layout ∧
            (stateAfter (Action.createPipeline source modes constants) engine).Serves pipeline
              source (signatureOf modes)
              (engine.settledConstants source (signatureOf modes) constants) := by
  obtain ⟨hmiddle, hgrow⟩ := caching_createLayout modes engine hfaithful
  simp only [Action.createPipeline, outcomeOf_bind, stateAfter_bind]
  cases hcreated : outcomeOf (Action.createLayout modes) engine with
  | error failure => exact ⟨hmiddle, hgrow, fun _ _ h ↦ by cases h⟩
  | ok created =>
    obtain ⟨signature, layout⟩ := created
    obtain ⟨rfl, hlayout⟩ := lookup_of_createLayout hcreated
    have hsettled := settledConstants_createLayout modes engine source (signatureOf modes) constants
    set middle := stateAfter (Action.createLayout modes) engine
    obtain ⟨hafter, hlast, hserves⟩ := pipelineFor_spec source constants hmiddle hlayout
    dsimp only
    cases hpipeline :
        outcomeOf (Action.pipelineFor source (signatureOf modes) layout constants) middle with
    | error failure => exact ⟨hafter, hgrow.trans hlast, fun _ _ h ↦ by cases h⟩
    | ok pipeline =>
      refine ⟨hafter, hgrow.trans hlast, fun _ _ h ↦ ?_⟩
      cases h
      refine ⟨hlast.layouts _ _ hlayout, ?_⟩
      rw [← hsettled]
      exact hserves pipeline hpipeline

end Engine

end ComputeArray
