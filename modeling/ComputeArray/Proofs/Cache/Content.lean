import ComputeArray.Proofs.Cache.Trace
import Mathlib.Data.List.Nodup

/-!
# Caches addressed by content

Whatever a run asks for, a layout kept for a signature has the entries of every list of modes with
that signature, a module kept for a source was made from it without an error, and a pipeline kept
without constants was made of the module and the layout kept for its source and its signature. The
device makes each of them at most once. Entries are added at the end and stay, and a request that
fails adds none for modules and pipelines (`contentAddressed_afterAll`).
-/

set_option autoImplicit false

namespace ComputeArray

open Engine

/-! ### Modules a request makes -/

/-- A source is given a module, and no message about it is an error. -/
def Compiler.accepts (compiler : Compiler) (source : String) : Bool :=
  match compiler.answer source with
  | .ok messages => messages.all fun message ↦ message.1 ≠ "error"
  | .error _ => false

/-- Messages are passed on to the end exactly if none of them is an error. -/
theorem outcomeOf_review (source : String) (messages : List (String × String)) (engine : Engine) :
    (∃ done, outcomeOf (Action.review source messages) engine = .ok done) ↔
      (messages.all fun message ↦ message.1 ≠ "error") = true := by
  induction messages generalizing engine with
  | nil => exact ⟨fun _ ↦ rfl, fun _ ↦ ⟨(), rfl⟩⟩
  | cons message rest ih =>
    obtain ⟨severity, text⟩ := message
    unfold Action.review
    by_cases herror : severity = "error"
    · rw [if_pos herror]
      simp [herror]
    · rw [if_neg herror]
      simpa [outcomeOf_bind, herror] using ih _

namespace Engine

/-- The layouts and modules kept, and all those the device has made. -/
def shelves (engine : Engine) :=
  (engine.layouts, engine.modules, engine.device.layouts, engine.device.modules)

/-- What a request for a module does: nothing, or the device makes one that is not kept since there
is an error about it, or it makes one that is kept. -/
inductive ModuleStep (source : String) (before after : Engine) : Prop
  | same (hmodules : after.modules = before.modules)
      (hmade : after.device.modules = before.device.modules)
  | rejected (hmodules : after.modules = before.modules)
      (hmade : after.device.modules = before.device.modules.push source)
      (hrejected : before.device.compiler.accepts source = false)
  | accepted (hnew : before.modules.lookup source = none)
      (haccepted : before.device.compiler.accepts source = true)
      (hmodules : after.modules = before.modules ++ [(source, before.device.modules.size + 1)])
      (hmade : after.device.modules = before.device.modules.push source)

/-- What a request that needs a module for a source leaves of layouts and modules. -/
structure Shelving (source : String) (before after : Engine) (failed : Prop) : Prop where
  layouts : after.layouts = before.layouts
  madeLayouts : after.device.layouts = before.device.layouts
  modules : ModuleStep source before after
  failed : failed → after.modules = before.modules

variable {source : String} {before middle after : Engine} {failed : Prop}

theorem Shelving.of_shelves_eq (h : after.shelves = before.shelves) :
    Shelving source before after failed := by
  simp only [shelves, Prod.mk.injEq] at h
  exact ⟨h.1, h.2.2.1, .same h.2.1 h.2.2.2, fun _ ↦ h.2.1⟩

theorem Shelving.congr (h : Shelving source before middle failed)
    (hshelves : after.shelves = middle.shelves) : Shelving source before after failed := by
  simp only [shelves, Prod.mk.injEq] at hshelves
  obtain ⟨hlayouts, hmodules, hmadeLayouts, hmade⟩ := hshelves
  refine ⟨hlayouts.trans h.layouts, hmadeLayouts.trans h.madeLayouts, ?_,
    fun hfailed ↦ hmodules.trans (h.failed hfailed)⟩
  cases h.modules with
  | same hsame hmade' => exact .same (hmodules.trans hsame) (hmade.trans hmade')
  | rejected hsame hmade' hrejected =>
    exact .rejected (hmodules.trans hsame) (hmade.trans hmade') hrejected
  | accepted hnew haccepted hkept hmade' =>
    exact .accepted hnew haccepted (hmodules.trans hkept) (hmade.trans hmade')

theorem Shelving.mono {other : Prop} (h : Shelving source before after failed)
    (hfailed : other → failed) : Shelving source before after other :=
  { h with failed := fun hother ↦ h.failed (hfailed hother) }

theorem Shelving.succeeded {other : Prop} (h : Shelving source before middle failed)
    (hshelves : after.shelves = middle.shelves) (hother : ¬ other) :
    Shelving source before after other :=
  (h.congr hshelves).mono fun h ↦ absurd h hother

theorem SameCaches.shelves (h : SameCaches before after) : after.shelves = before.shelves := by
  simp only [SameCaches, caches, Device.objects, Prod.mk.injEq] at h
  simp only [Engine.shelves, h]

end Engine

/-- What has succeeded has not failed. -/
theorem not_exists_eq_error {α : Type} {result : α} :
    ¬ ∃ failure : Failure, Except.ok result = .error failure := by
  rintro ⟨_, ⟨⟩⟩

theorem shelving_createModule (source : String) (engine : Engine) :
    Shelving source engine (stateAfter (Action.createModule source) engine)
      (∃ failure, outcomeOf (Action.createModule source) engine = .error failure) := by
  simp only [Action.createModule, outcomeOf_bind, stateAfter_bind, stateAfter_assertActive]
  cases outcomeOf Action.assertActive engine with
  | error failure => exact .of_shelves_eq rfl
  | ok active =>
    simp only [outcomeOf_get, stateAfter_get]
    cases hlookup : engine.modules.lookup source with
    | some module => exact .of_shelves_eq rfl
    | none =>
      simp only [Action.compileModule, outcomeOf_bind, stateAfter_bind, outcomeOf_onDevice,
        stateAfter_onDevice]
      cases hresult : (engine.device.compile source).1 with
      | error message =>
        refine .of_shelves_eq ?_
        simp only [(Device.compile_eq_error hresult).2]
        rfl
      | ok accepted =>
        obtain ⟨module, messages⟩ := accepted
        obtain ⟨hanswer, rfl, hdevice⟩ := Device.compile_eq_ok hresult
        have haccepts : engine.device.compiler.accepts source =
            messages.all fun message ↦ message.1 ≠ "error" := by
          rw [Compiler.accepts, hanswer]
        simp only [outcomeOf_bind, stateAfter_bind]
        set start : Engine := { engine with device := (engine.device.compile source).2 } with hstart
        have hreviewed := SameCaches.shelves (caches_review source messages start)
        have hcompiled : start.device.layouts = engine.device.layouts ∧
            start.device.modules = engine.device.modules.push source := by
          rw [hstart, hdevice]
          exact ⟨rfl, rfl⟩
        have hreview := outcomeOf_review source messages start
        rw [← haccepts] at hreview
        cases houtcome : outcomeOf (Action.review source messages) start with
        | error failure =>
          have hrejected : engine.device.compiler.accepts source = false := by
            simpa [houtcome] using hreview
          have hstep : Shelving source engine start True :=
            ⟨rfl, hcompiled.1, .rejected rfl hcompiled.2 hrejected, fun _ ↦ rfl⟩
          exact (hstep.congr hreviewed).mono fun _ ↦ trivial
        | ok done =>
          have haccepted : engine.device.compiler.accepts source = true := by
            simpa [houtcome] using hreview
          simp only [shelves, Prod.mk.injEq] at hreviewed
          obtain ⟨hlayouts, hmodules, hmadeLayouts, hmade⟩ := hreviewed
          refine ⟨hlayouts, hmadeLayouts.trans hcompiled.1,
            .accepted hlookup haccepted ?_ (hmade.trans hcompiled.2),
            fun hfailed ↦ absurd hfailed not_exists_eq_error⟩
          exact congrArg (· ++ [(source, engine.device.modules.size + 1)]) hmodules

theorem shelving_buildPipeline (source : String) (layout : Nat)
    (constants : List (String × Value)) (engine : Engine) :
    Shelving source engine (stateAfter (Action.buildPipeline source layout constants) engine)
      (∃ failure,
        outcomeOf (Action.buildPipeline source layout constants) engine = .error failure) := by
  have hmodule := shelving_createModule source engine
  rcases buildPipeline_cases source layout constants engine with
    ⟨failure, hfailed, -, hstate⟩ | ⟨module, -, houtcome, hstate⟩
  · rw [hstate]
    exact hmodule.mono fun _ ↦ ⟨failure, hfailed⟩
  · rw [hstate, houtcome]
    exact hmodule.succeeded rfl not_exists_eq_error

theorem shelving_pipelineFor (source signature : String) (layout : Nat)
    (constants : List (String × Value)) (engine : Engine) :
    Shelving source engine
      (stateAfter (Action.pipelineFor source signature layout constants) engine)
      (∃ failure,
        outcomeOf (Action.pipelineFor source signature layout constants) engine =
          .error failure) := by
  have hbuilt := shelving_buildPipeline source layout constants engine
  unfold Action.pipelineFor
  split
  · next hempty =>
    obtain rfl := List.isEmpty_iff.mp hempty
    simp only [Action.plainPipeline, outcomeOf_bind, stateAfter_bind, outcomeOf_get, stateAfter_get]
    cases engine.pipelines.lookup (source, signature) with
    | some pipeline => exact .of_shelves_eq rfl
    | none =>
      simp only [outcomeOf_bind, stateAfter_bind]
      cases houtcome : outcomeOf (Action.buildPipeline source layout []) engine with
      | error failure => exact hbuilt.mono fun _ ↦ ⟨failure, houtcome⟩
      | ok pipeline => exact hbuilt.succeeded rfl not_exists_eq_error
  · simp only [Action.tunedPipeline, outcomeOf_bind, stateAfter_bind, outcomeOf_actionOfExcept,
      stateAfter_actionOfExcept]
    cases TunedKey.check constants with
    | error failure => exact .of_shelves_eq rfl
    | ok checked =>
      simp only [outcomeOf_get, stateAfter_get]
      cases engine.tunedPipeline? (TunedKey.make source signature constants) with
      | some pipeline => exact .of_shelves_eq rfl
      | none =>
        simp only [outcomeOf_bind, stateAfter_bind]
        cases houtcome : outcomeOf (Action.buildPipeline source layout constants) engine with
        | error failure => exact hbuilt.mono fun _ ↦ ⟨failure, houtcome⟩
        | ok pipeline => exact hbuilt.succeeded rfl not_exists_eq_error

/-! ### Layouts -/

namespace Engine

/-- The signatures kept are those of the layouts made, each once. -/
structure LayoutsOnce (engine : Engine) : Prop where
  signatures : engine.layouts.map Prod.fst = engine.device.layouts.toList.map signatureOfEntries
  nodup : (engine.layouts.map Prod.fst).Nodup

theorem nodup_concat_of_lookup {κ ν : Type} [BEq κ] [LawfulBEq κ] {entries : List (κ × ν)} {key : κ}
    (hnodup : (entries.map Prod.fst).Nodup) (h : entries.lookup key = none) (value : ν) :
    ((entries ++ [(key, value)]).map Prod.fst).Nodup := by
  have hnew : key ∉ entries.map Prod.fst := fun hmem ↦ by
    obtain ⟨found, hfound⟩ := exists_lookup_of_mem hmem
    rw [h] at hfound
    cases hfound
  rw [List.map_append]
  exact List.nodup_append.mpr ⟨hnodup, by simp, fun a ha b hb ↦ by
    obtain rfl := List.mem_singleton.mp hb
    exact fun heq ↦ hnew (heq ▸ ha)⟩

theorem LayoutsOnce.createLayout {engine : Engine} (h : engine.LayoutsOnce) (modes : List Mode) :
    (stateAfter (Action.createLayout modes) engine).LayoutsOnce := by
  rcases createLayout_cases modes engine with ⟨_, -, hstate⟩ | ⟨_, -, -, hstate⟩ | ⟨hnew, -, hstate⟩
  · rwa [hstate]
  · rwa [hstate]
  · rw [hstate]
    refine ⟨?_, nodup_concat_of_lookup h.nodup hnew _⟩
    change (engine.layouts ++ [_]).map Prod.fst =
      (engine.device.layouts.push (entriesOf modes)).toList.map _
    rw [List.map_append, h.signatures, Array.toList_push, List.map_append, List.map_singleton,
      List.map_singleton, signatureOfEntries_entriesOf]

/-! ### Modules -/

end Engine

/-- The source a module is needed for. -/
def Request.source? : Request → Option String
  | layout _ => none
  | module source => some source
  | pipeline source _ _ => some source

/-- The source of the module the device has made for a request, unless
there is an error about it. -/
def Asked.acceptedSource? (asked : Asked) : Option String :=
  match asked.request.source? with
  | some source =>
    if asked.engine.device.modules.size < asked.after.device.modules.size ∧
        asked.engine.device.compiler.accepts source = true then some source
    else none
  | none => none

/-- The sources the device has made modules of without an error. -/
def acceptedSources (history : List Asked) : List String := history.filterMap Asked.acceptedSource?

namespace Engine

/-- The modules kept are those made without an error, each source once. -/
structure ModulesOnce (engine : Engine) (history : List Asked) : Prop where
  sources : engine.modules.map Prod.fst = acceptedSources history
  nodup : (engine.modules.map Prod.fst).Nodup
  made : ∀ source module, (source, module) ∈ engine.modules → ∃ asked ∈ history,
    asked.acceptedSource? = some source ∧ module = asked.engine.device.modules.size + 1

variable {engine : Engine} {history : List Asked}

theorem ModulesOnce.of_unmade (h : engine.ModulesOnce history) {asked : Asked} {after : Engine}
    (hmodules : after.modules = engine.modules) (hunmade : asked.acceptedSource? = none) :
    after.ModulesOnce (history ++ [asked]) := by
  refine ⟨?_, ?_, fun source module hmem ↦ ?_⟩
  · rw [hmodules, h.sources]
    simp [acceptedSources, hunmade]
  · rw [hmodules]
    exact h.nodup
  · rw [hmodules] at hmem
    obtain ⟨earlier, hearlier, hmade⟩ := h.made source module hmem
    exact ⟨earlier, List.mem_append_left _ hearlier, hmade⟩

theorem ModulesOnce.ask {asked : Asked} {source : String}
    (h : asked.engine.ModulesOnce history) (hsource : asked.request.source? = some source)
    (hstep : ModuleStep source asked.engine asked.after) :
    asked.after.ModulesOnce (history ++ [asked]) := by
  cases hstep with
  | same hmodules hmade =>
    refine h.of_unmade hmodules ?_
    simp [Asked.acceptedSource?, hsource, hmade]
  | rejected hmodules hmade hrejected =>
    refine h.of_unmade hmodules ?_
    simp [Asked.acceptedSource?, hsource, hrejected]
  | accepted hnew haccepted hmodules hmade =>
    have hsome : asked.acceptedSource? = some source := by
      simp [Asked.acceptedSource?, hsource, haccepted, hmade]
    refine ⟨?_, ?_, fun other module hmem ↦ ?_⟩
    · rw [hmodules, List.map_append, h.sources]
      simp [acceptedSources, hsome]
    · rw [hmodules]
      exact nodup_concat_of_lookup h.nodup hnew _
    · rw [hmodules] at hmem
      rcases List.mem_append.mp hmem with hold | hlast
      · obtain ⟨earlier, hearlier, hmade⟩ := h.made other module hold
        exact ⟨earlier, List.mem_append_left _ hearlier, hmade⟩
      · obtain ⟨rfl, rfl⟩ := Prod.mk.inj (List.mem_singleton.mp hlast)
        exact ⟨asked, by simp, hsome, rfl⟩

/-! ### Pipelines without constants -/

end Engine

namespace Device

/-- What the device has made pipelines without constants of. -/
def plainParts (device : Device) : List PipelineParts :=
  device.pipelines.toList.filter (·.constants.isEmpty)

/-- The source and the signature a pipeline was made for. -/
def addressOf (device : Device) (parts : PipelineParts) : Option String × Option String :=
  (numbered device.modules parts.module,
    (numbered device.layouts parts.layout).map signatureOfEntries)

theorem Grows.addressOf {before after : Device} (h : before.Grows after) {parts : PipelineParts}
    {source signature : String}
    (haddress : before.addressOf parts = (some source, some signature)) :
    after.addressOf parts = (some source, some signature) := by
  simp only [Device.addressOf, Prod.mk.injEq, Option.map_eq_some_iff] at haddress ⊢
  obtain ⟨hmodule, entries, hentries, hsignature⟩ := haddress
  exact ⟨h.modules _ _ hmodule, entries, h.layouts _ _ hentries, hsignature⟩

end Device

namespace Engine

/-- The pipelines kept without constants are those made without, each
for a source and a signature of its own. -/
structure PlainOnce (engine : Engine) : Prop where
  made : engine.device.plainParts.map engine.device.addressOf =
    engine.pipelines.map fun entry ↦ (some entry.1.1, some entry.1.2)
  nodup : (engine.pipelines.map Prod.fst).Nodup

variable {before after : Engine}

theorem PlainOnce.map_addressOf (h : before.PlainOnce) (hgrow : before.device.Grows after.device) :
    before.device.plainParts.map after.device.addressOf =
      before.pipelines.map fun entry ↦ (some entry.1.1, some entry.1.2) := by
  rw [← h.made]
  refine List.map_congr_left fun parts hmem ↦ ?_
  have haddress := List.mem_map_of_mem (f := before.device.addressOf) hmem
  rw [h.made] at haddress
  obtain ⟨entry, -, hentry⟩ := List.mem_map.mp haddress
  rw [← hentry]
  exact hgrow.addressOf hentry.symm

/-- What makes no pipelines without constants. -/
theorem PlainOnce.of_unmade (h : before.PlainOnce) (hgrow : before.device.Grows after.device)
    (hpipelines : after.pipelines = before.pipelines)
    (hplain : after.device.plainParts = before.device.plainParts) : after.PlainOnce := by
  refine ⟨?_, ?_⟩
  · rw [hplain, hpipelines]
    exact h.map_addressOf hgrow
  · rw [hpipelines]
    exact h.nodup

theorem PlainOnce.of_samePipelines (h : before.PlainOnce)
    (hgrow : before.device.Grows after.device) (hsame : SamePipelines before after) :
    after.PlainOnce :=
  h.of_unmade hgrow hsame.pipelines
    (congrArg (fun pipelines ↦ pipelines.toList.filter (·.constants.isEmpty)) hsame.devicePipelines)

theorem PlainOnce.plainPipeline (h : before.PlainOnce) (hfaithful : before.FaithfulCaches)
    {source signature : String} {layout : Nat}
    (hlayout : before.layouts.lookup signature = some layout) :
    (stateAfter (Action.plainPipeline source signature layout) before).PlainOnce := by
  obtain ⟨hlast, hgrow, hserves⟩ :=
    @plainPipeline_spec source signature layout before hfaithful hlayout
  rcases plainPipeline_cases source signature layout before with
    ⟨_, -, hsame⟩ | ⟨_, -, -, hstate⟩ | ⟨module, hnew, -, houtcome, hkept, -, hpushed⟩
  · exact h.of_samePipelines hgrow.device hsame
  · rwa [hstate]
  · set after := stateAfter (Action.plainPipeline source signature layout) before
    obtain ⟨parts, hparts, hmodule, hkeptLayout, -⟩ := hserves _ houtcome
    rw [hpushed, numbered_push_new, Option.some.injEq] at hparts
    subst hparts
    obtain ⟨modes, hmodes, hsignature⟩ := hlast.layouts _ _ hkeptLayout
    have haddress :
        after.device.addressOf ⟨layout, module, []⟩ = (some source, some signature) := by
      simp only [Device.addressOf, hlast.modules _ _ hmodule, hmodes, Option.map_some,
        signatureOfEntries_entriesOf, hsignature]
    have hplain : after.device.plainParts = before.device.plainParts ++ [⟨layout, module, []⟩] := by
      simp only [Device.plainParts, hpushed, Array.toList_push, List.filter_append]
      rfl
    refine ⟨?_, ?_⟩
    · rw [hplain, hkept, List.map_append, List.map_append, h.map_addressOf hgrow.device]
      exact congrArg (_ ++ [·]) haddress
    · rw [hkept]
      exact nodup_concat_of_lookup h.nodup hnew _

theorem PlainOnce.tunedPipeline (h : before.PlainOnce) (hfaithful : before.FaithfulCaches)
    {source signature : String} {layout : Nat} {constants : List (String × Value)}
    (hconstants : ¬ constants.isEmpty = true)
    (hlayout : before.layouts.lookup signature = some layout) :
    (stateAfter (Action.tunedPipeline source signature layout constants) before).PlainOnce := by
  obtain ⟨-, hgrow, -⟩ :=
    @tunedPipeline_spec source signature layout constants before hfaithful hlayout
  rcases tunedPipeline_cases source signature layout constants before with
    ⟨_, -, hsame⟩ | ⟨_, -, -, -, hstate⟩ | ⟨module, -, -, -, -, hpipelines, hpushed⟩
  · exact h.of_samePipelines hgrow.device hsame
  · rw [hstate]
    exact h.of_unmade (.refl _) rfl rfl
  · refine h.of_unmade hgrow.device hpipelines ?_
    simp only [Device.plainParts, hpushed, Array.toList_push, List.filter_append]
    rw [List.filter_cons_of_neg (by exact hconstants), List.filter_nil, List.append_nil]

/-! ### Requests -/

/-- A request for a layout changes neither modules nor the compiler. -/
theorem createLayout_rest (modes : List Mode) (engine : Engine) :
    let after := stateAfter (Action.createLayout modes) engine
    after.modules = engine.modules ∧ after.device.modules = engine.device.modules ∧
      after.device.compiler = engine.device.compiler := by
  intro after
  rcases createLayout_cases modes engine with ⟨_, -, h⟩ | ⟨_, -, -, h⟩ | ⟨-, -, h⟩
  all_goals
    rw [show after = _ from h]
    exact ⟨rfl, rfl, rfl⟩

/-- A request for a pipeline does to layouts what one for its layout does, and to modules what one
for its module does, if it comes that far. -/
theorem createPipeline_shelves (source : String) (modes : List Mode)
    (constants : List (String × Value)) (engine : Engine) :
    let after := stateAfter (Action.createPipeline source modes constants) engine
    (after.layouts = engine.layouts ∧ after.device.layouts = engine.device.layouts ∨
      after.layouts = (stateAfter (Action.createLayout modes) engine).layouts ∧
        after.device.layouts = (stateAfter (Action.createLayout modes) engine).device.layouts) ∧
    ModuleStep source engine after ∧
    ((∃ failure, outcomeOf (Action.createPipeline source modes constants) engine = .error failure) →
      after.modules = engine.modules ∧ SamePipelines engine after) := by
  intro after
  rcases createPipeline_cases source modes constants engine with
    ⟨_, -, hstate⟩ | ⟨layout, middle, -, rfl, houtcome, hstate⟩
  · rw [show after = engine from hstate]
    exact ⟨.inl ⟨rfl, rfl⟩, .same rfl rfl, fun _ ↦ ⟨rfl, rfl⟩⟩
  have hsame := samePipelines_createLayout modes engine
  obtain ⟨hmodules, hmade, hcompiler⟩ := createLayout_rest modes engine
  set middle := stateAfter (Action.createLayout modes) engine
  have hshelving := shelving_pipelineFor source (signatureOf modes) layout constants middle
  have hfailed : (∃ failure,
      outcomeOf (Action.createPipeline source modes constants) engine = .error failure) →
        ∃ failure, outcomeOf (Action.pipelineFor source (signatureOf modes) layout constants)
          middle = .error failure := by
    rintro ⟨failure, hfailure⟩
    rw [houtcome] at hfailure
    cases hresult :
        outcomeOf (Action.pipelineFor source (signatureOf modes) layout constants) middle with
    | error failure => exact ⟨failure, rfl⟩
    | ok pipeline =>
      rw [hresult] at hfailure
      cases hfailure
  simp only [after, hstate]
  refine ⟨.inr ⟨hshelving.layouts, hshelving.madeLayouts⟩, ?_, fun h ↦
    ⟨(hshelving.failed (hfailed h)).trans hmodules, trans_of SamePipelines hsame ?_⟩⟩
  · cases hshelving.modules with
    | same hkept hmade' => exact .same (hkept.trans hmodules) (hmade'.trans hmade)
    | rejected hkept hmade' hrejected =>
      exact .rejected (hkept.trans hmodules) (hmade' ▸ congrArg (Array.push · source) hmade)
        (hcompiler ▸ hrejected)
    | accepted hnew haccepted hkept hmade' =>
      rw [hmodules] at hnew hkept
      rw [hmade] at hkept hmade'
      exact .accepted hnew (hcompiler ▸ haccepted) hkept hmade'
  · obtain ⟨failure, hfailure⟩ := hfailed h
    exact samePipelines_pipelineFor_of_error hfailure

/-- The caches have only got entries at their ends. -/
structure Appends (before after : Engine) : Prop where
  layouts : before.layouts <+: after.layouts
  modules : before.modules <+: after.modules
  pipelines : before.pipelines <+: after.pipelines

instance : Std.Refl Appends :=
  ⟨fun _ ↦ ⟨List.prefix_rfl, List.prefix_rfl, List.prefix_rfl⟩⟩

instance : IsTrans Engine Appends :=
  ⟨fun _ _ _ hfirst hlast ↦ ⟨hfirst.layouts.trans hlast.layouts,
    hfirst.modules.trans hlast.modules, hfirst.pipelines.trans hlast.pipelines⟩⟩

theorem SameCaches.appends (h : SameCaches before after) : Appends before after := by
  simp only [SameCaches, caches, Prod.mk.injEq] at h
  exact ⟨h.1 ▸ List.prefix_rfl, h.2.1 ▸ List.prefix_rfl, h.2.2.1 ▸ List.prefix_rfl⟩

theorem ModuleStep.prefix {source : String} (h : ModuleStep source before after) :
    before.modules <+: after.modules := by
  cases h with
  | same hmodules _ => exact hmodules ▸ List.prefix_rfl
  | rejected hmodules _ _ => exact hmodules ▸ List.prefix_rfl
  | accepted _ _ hmodules _ => exact hmodules ▸ List.prefix_append _ _

/-- All that is known of the caches after requests have been made. -/
structure Stocked (engine : Engine) (history : List Asked) : Prop where
  faithful : engine.FaithfulCaches
  layouts : engine.LayoutsOnce
  modules : engine.ModulesOnce history
  plain : engine.PlainOnce

variable {engine : Engine} {history : List Asked}

theorem LayoutsOnce.congr (h : before.LayoutsOnce) (hlayouts : after.layouts = before.layouts)
    (hmade : after.device.layouts = before.device.layouts) : after.LayoutsOnce := by
  refine ⟨?_, ?_⟩
  · rw [hlayouts, hmade]
    exact h.signatures
  · rw [hlayouts]
    exact h.nodup

theorem Stocked.of_sameCaches (hsame : SameCaches before after) (h : before.Stocked history) :
    after.Stocked history := by
  obtain ⟨hfaithful, hgrow⟩ := Caching.of_caches_eq hsame h.faithful
  have hshelves := hsame.shelves
  simp only [shelves, Prod.mk.injEq] at hshelves
  obtain ⟨hlayouts, hmodules, hmade, -⟩ := hshelves
  refine ⟨hfaithful, h.layouts.congr hlayouts hmade, ⟨?_, ?_, ?_⟩,
    h.plain.of_samePipelines hgrow.device hsame.samePipelines⟩
  · rw [hmodules]
    exact h.modules.sources
  · rw [hmodules]
    exact h.modules.nodup
  · rw [hmodules]
    exact h.modules.made

theorem Stocked.createLayout (h : engine.Stocked history) (modes : List Mode) :
    (stateAfter (Action.createLayout modes) engine).Stocked
      (history ++ [⟨engine, .layout modes⟩]) := by
  obtain ⟨hfaithful, hgrow⟩ := caching_createLayout modes engine h.faithful
  exact ⟨hfaithful, h.layouts.createLayout modes,
    h.modules.of_unmade (createLayout_rest modes engine).1 rfl,
    h.plain.of_samePipelines hgrow.device (samePipelines_createLayout modes engine)⟩

theorem Stocked.createModule (h : engine.Stocked history) (source : String) :
    (stateAfter (Action.createModule source) engine).Stocked
      (history ++ [⟨engine, .module source⟩]) := by
  obtain ⟨hfaithful, hgrow⟩ := caching_createModule source engine h.faithful
  have hshelving := shelving_createModule source engine
  have hafter := Asked.after_module engine source
  have hmodules : (⟨engine, .module source⟩ : Asked).after.ModulesOnce
      (history ++ [⟨engine, .module source⟩]) :=
    ModulesOnce.ask h.modules rfl (hafter ▸ hshelving.modules)
  exact ⟨hfaithful, h.layouts.congr hshelving.layouts hshelving.madeLayouts, hafter ▸ hmodules,
    h.plain.of_samePipelines hgrow.device (samePipelines_createModule source engine)⟩

theorem Stocked.createPipeline (h : engine.Stocked history) (source : String) (modes : List Mode)
    (constants : List (String × Value)) :
    (stateAfter (Action.createPipeline source modes constants) engine).Stocked
      (history ++ [⟨engine, .pipeline source modes constants⟩]) := by
  obtain ⟨hfaithful, -⟩ := createPipeline_spec source modes constants h.faithful
  obtain ⟨hlayouts, hstep, -⟩ := createPipeline_shelves source modes constants engine
  have hafter := Asked.after_pipeline engine source modes constants
  have hmodules : (⟨engine, .pipeline source modes constants⟩ : Asked).after.ModulesOnce
      (history ++ [⟨engine, .pipeline source modes constants⟩]) :=
    ModulesOnce.ask h.modules rfl (hafter ▸ hstep)
  refine ⟨hfaithful, ?_, hafter ▸ hmodules, ?_⟩
  · rcases hlayouts with ⟨hkept, hmade⟩ | ⟨hkept, hmade⟩
    · exact h.layouts.congr hkept hmade
    · exact (h.layouts.createLayout modes).congr hkept hmade
  · have hmiddle := h.createLayout modes
    rcases createPipeline_cases source modes constants engine with
      ⟨_, -, hstate⟩ | ⟨layout, middle, hcreated, rfl, -, hstate⟩
    · rw [hstate]
      exact h.plain
    · have hlayout := (lookup_of_createLayout hcreated).2
      rw [hstate, Action.pipelineFor]
      split
      · exact hmiddle.plain.plainPipeline hmiddle.faithful hlayout
      · next hconstants => exact hmiddle.plain.tunedPipeline hmiddle.faithful hconstants hlayout

/-- Every request keeps the caches as they are to be. -/
theorem Stocked.ask {asked : Asked} (h : asked.engine.Stocked history) :
    asked.after.Stocked (history ++ [asked]) := by
  obtain ⟨engine, request⟩ := asked
  cases request with
  | layout modes =>
    rw [Asked.after_layout]
    exact h.createLayout modes
  | module source =>
    rw [Asked.after_module]
    exact h.createModule source
  | pipeline source modes constants =>
    rw [Asked.after_pipeline]
    exact h.createPipeline source modes constants

theorem prefix_layouts_createLayout (modes : List Mode) (engine : Engine) :
    engine.layouts <+: (stateAfter (Action.createLayout modes) engine).layouts := by
  rcases createLayout_cases modes engine with ⟨_, -, h⟩ | ⟨_, -, -, h⟩ | ⟨-, -, h⟩
  · exact (congrArg Engine.layouts h).symm ▸ List.prefix_rfl
  · exact (congrArg Engine.layouts h).symm ▸ List.prefix_rfl
  · rw [h]
    exact List.prefix_append _ _

theorem appends_ask (asked : Asked) : Appends asked.engine asked.after := by
  obtain ⟨engine, request⟩ := asked
  cases request with
  | layout modes =>
    rw [Asked.after_layout]
    refine ⟨prefix_layouts_createLayout modes engine, ?_, ?_⟩
    · exact (createLayout_rest modes engine).1 ▸ List.prefix_rfl
    · exact (samePipelines_createLayout modes engine).pipelines ▸ List.prefix_rfl
  | module source =>
    rw [Asked.after_module]
    have hshelving := shelving_createModule source engine
    refine ⟨?_, hshelving.modules.prefix, ?_⟩
    · exact hshelving.layouts ▸ List.prefix_rfl
    · exact (samePipelines_createModule source engine).pipelines ▸ List.prefix_rfl
  | pipeline source modes constants =>
    rw [Asked.after_pipeline]
    obtain ⟨hkept, hstep, -⟩ := createPipeline_shelves source modes constants engine
    refine ⟨?_, hstep.prefix, prefix_pipelines_createPipeline source modes constants engine⟩
    rcases hkept with ⟨hkept, -⟩ | ⟨hkept, -⟩
    · exact hkept ▸ List.prefix_rfl
    · rw [hkept]
      exact prefix_layouts_createLayout modes engine

/-- A request that fails adds no entry for modules and pipelines. -/
theorem unchanged_of_ask_error {asked : Asked} {failure : Failure}
    (h : outcomeOf asked.request.primitive.action asked.engine = .error failure) :
    asked.after.modules = asked.engine.modules ∧ SamePipelines asked.engine asked.after := by
  obtain ⟨engine, request⟩ := asked
  cases request with
  | layout modes =>
    rw [Asked.after_layout]
    exact ⟨(createLayout_rest modes engine).1, samePipelines_createLayout modes engine⟩
  | module source =>
    rw [Asked.after_module]
    exact ⟨(shelving_createModule source engine).failed ⟨failure, outcomeOf_discard_eq_error h⟩,
      samePipelines_createModule source engine⟩
  | pipeline source modes constants =>
    rw [Asked.after_pipeline]
    exact (createPipeline_shelves source modes constants engine).2.2
      ⟨failure, outcomeOf_discard_eq_error h⟩

end Engine

namespace Traced

variable {first last : Engine} {asked : List Asked}

theorem appends (h : Traced first asked last) : Appends first last := by
  induction h with
  | rest h => exact h.appends
  | ask h _ ih => exact trans_of Appends h.appends (trans_of Appends (appends_ask _) ih)

end Traced

namespace Engine

/-! ### Runs -/

/-- Layouts, modules and pipelines without constants are known by what they were made of, and the
device has made each of them once. -/
structure ContentAddressed (engine : Engine) (history : List Asked) : Prop where
  layouts : ∀ signature layout, engine.layouts.lookup signature = some layout →
    ∃ kept, numbered engine.device.layouts layout = some kept ∧
      ∀ modes, signatureOf modes = signature ↔ entriesOf modes = kept
  modules : ∀ source module, engine.modules.lookup source = some module →
    numbered engine.device.modules module = some source ∧ ∃ asked ∈ history,
      asked.acceptedSource? = some source ∧ module = asked.engine.device.modules.size + 1
  pipelines : ∀ source signature pipeline,
    engine.pipelines.lookup (source, signature) = some pipeline →
      ∃ parts, numbered engine.device.pipelines pipeline = some parts ∧ parts.constants = [] ∧
        engine.modules.lookup source = some parts.module ∧
        engine.layouts.lookup signature = some parts.layout
  layoutsOnce : (engine.device.layouts.toList.map signatureOfEntries).Nodup
  modulesOnce : (acceptedSources history).Nodup
  pipelinesOnce : (engine.device.plainParts.map engine.device.addressOf).Nodup

variable {engine : Engine} {history : List Asked}

theorem Stocked.contentAddressed (h : engine.Stocked history) :
    engine.ContentAddressed history where
  layouts signature layout hlookup := by
    obtain ⟨kept, hkept, rfl⟩ := h.faithful.layouts signature layout hlookup
    exact ⟨entriesOf kept, hkept, fun modes ↦ signatureOf_eq_iff modes kept⟩
  modules source module hlookup :=
    ⟨h.faithful.modules source module hlookup, h.modules.made source module (mem_of_lookup hlookup)⟩
  pipelines source signature pipeline hlookup := by
    obtain ⟨parts, hparts, hmodule, hlayout, hconstants⟩ :=
      h.faithful.pipelines source signature pipeline hlookup
    exact ⟨parts, hparts, hconstants.eq_nil, hmodule, hlayout⟩
  layoutsOnce := h.layouts.signatures ▸ h.layouts.nodup
  modulesOnce := h.modules.sources ▸ h.modules.nodup
  pipelinesOnce := by
    have hmap : (engine.pipelines.map fun entry ↦ (some entry.1.1, some entry.1.2)) =
        (engine.pipelines.map Prod.fst).map fun key ↦ (some key.1, some key.2) := by
      rw [List.map_map]
      rfl
    rw [h.plain.made, hmap]
    refine h.plain.nodup.map fun key other heq ↦ ?_
    simpa [Prod.ext_iff] using heq

theorem stocked_create (computing : Computing) (features : List String) (limits : Limits)
    (destroyFailure : Option String) (options : Options) :
    (create (.createWith computing features limits destroyFailure) options).Stocked [] :=
  ⟨faithfulCaches_create computing features limits destroyFailure options, ⟨rfl, List.nodup_nil⟩,
    ⟨rfl, List.nodup_nil, nofun⟩, ⟨rfl, List.nodup_nil⟩⟩

/-- Along any run from a new engine on a new device, whatever the device compiles and refuses, the
caches are addressed by content before each request, after it and at the end. Entries are never
replaced or removed, and a request that fails adds none for modules and pipelines. -/
theorem contentAddressed_afterAll (computing : Computing) (features : List String) (limits : Limits)
    (destroyFailure : Option String) (options : Options) (primitives : List Primitive) :
    let start := create (.createWith computing features limits destroyFailure) options
    (start.afterAll primitives).ContentAddressed (start.asked primitives) ∧
      (∀ earlier asked later, start.asked primitives = earlier ++ asked :: later →
        asked.engine.ContentAddressed earlier ∧ asked.after.ContentAddressed (earlier ++ [asked]) ∧
          Appends asked.engine asked.after ∧
          ∀ failure, outcomeOf asked.request.primitive.action asked.engine = .error failure →
            asked.after.modules = asked.engine.modules ∧
              SamePipelines asked.engine asked.after) ∧
      ∀ first second, primitives = first ++ second →
        Appends (start.afterAll first) (start.afterAll primitives) := by
  intro start
  obtain ⟨hlast, hrequests⟩ := (traced_afterAll primitives start).invariant
    (I := fun history engine ↦ engine.Stocked history) Stocked.of_sameCaches
    (fun _ _ _ h ↦ h.ask) (stocked_create computing features limits destroyFailure options)
  refine ⟨hlast.contentAddressed, fun earlier asked later hsplit ↦ ?_, ?_⟩
  · have hfound : asked.engine.Stocked earlier := hrequests earlier asked later hsplit
    exact ⟨hfound.contentAddressed, hfound.ask.contentAddressed, appends_ask asked,
      fun _ ↦ unchanged_of_ask_error⟩
  · rintro first second rfl
    rw [afterAll_append]
    exact (traced_afterAll second _).appends

end Engine

end ComputeArray
