import ComputeArray.Engine.Generator
import ComputeArray.Engine.Lifetime
import ComputeArray.Proofs.Half.Passes
import ComputeArray.Proofs.Memory.Access

/-!
# Sources handed to a device

A device has been handed the sources of its modules and those its trace asks for, refused ones among
them. Few actions hand sources over or make arrays, all others leave an engine as it was in this
respect (`Engine.Abides`). An engine `Gates` half precision if it has arrays of it only where it is
available, and all sources but the callers' own are gated. To compile a gated source, or one of the
callers' own, keeps it so (`gating_submit`).
-/

set_option autoImplicit false

namespace ComputeArray

open Kernel Engine

/-! ### Devices -/

/-- The source a call asks to be made a module. -/
def Call.source? : Call → Option String
  | compile _ source => some source
  | rejectSource source => some source
  | _ => none

namespace Device

/-- The source has been made a module, or a call asks for that. -/
def Handed (device : Device) (source : String) : Prop :=
  source ∈ device.modules ∨ ∃ call ∈ device.calls, call.source? = some source

/-- The later device has the same features, and has been handed nothing more. -/
structure Abides (before after : Device) : Prop where
  features : after.features = before.features
  handed : ∀ source, after.Handed source → before.Handed source

namespace Abides

variable {first middle last : Device}

theorem trans (hfirst : Abides first middle) (hlast : Abides middle last) : Abides first last :=
  ⟨hlast.features.trans hfirst.features, fun source h ↦
    hfirst.handed source (hlast.handed source h)⟩

theorem of_apparatus (h : last.apparatus = first.apparatus) : Abides first last := by
  simp only [apparatus, Prod.mk.injEq] at h
  obtain ⟨hfeatures, -, -, -, -, hmodules, -, -, -, hcalls⟩ := h
  exact ⟨hfeatures, fun source ↦ by rw [Handed, Handed, hmodules, hcalls]; exact id⟩

/-- There is one more call, which asks for no module. -/
theorem of_push {call : Call} (hfeatures : last.features = first.features)
    (hmodules : last.modules = first.modules) (hcalls : last.calls = first.calls.push call)
    (hcall : call.source? = none) : Abides first last := by
  refine ⟨hfeatures, fun source h ↦ ?_⟩
  rw [Handed, hmodules, hcalls] at h
  refine h.imp_right ?_
  rintro ⟨made, hmem, hsource⟩
  rcases Array.mem_push.mp hmem with hmem | rfl
  · exact ⟨made, hmem, hsource⟩
  · rw [hcall] at hsource
    cases hsource

theorem record {call : Call} (hcall : call.source? = none) (device : Device) :
    device.Abides (device.record call) :=
  .of_push rfl rfl rfl hcall

theorem refl (device : Device) : device.Abides device := .of_apparatus rfl

theorem setBytes (buffer : Nat) (bytes : Bytes) (device : Device) :
    device.Abides (device.setBytes buffer bytes) :=
  .of_apparatus (apparatus_setBytes buffer bytes device)

theorem submit (commands : List Command) (device : Device) :
    device.Abides (device.submit commands) :=
  trans (.of_apparatus (apparatus_foldl_perform commands device)) (record rfl _)

end Abides

/-- Of a compilation, a device has been handed the source. -/
theorem handed_compile {device : Device} {source found : String}
    (h : (device.compile source).2.Handed found) : device.Handed found ∨ found = source := by
  unfold compile at h
  split at h
  · obtain hmodule | ⟨call, hmem, hsource⟩ := h
    · exact .inl (.inl hmodule)
    · rcases Array.mem_push.mp hmem with hmem | rfl
      · exact .inl (.inr ⟨call, hmem, hsource⟩)
      · exact .inr (Option.some.inj hsource).symm
  · obtain hmodule | ⟨call, hmem, hsource⟩ := h
    · exact (Array.mem_push.mp hmodule).imp .inl id
    · rcases Array.mem_push.mp hmem with hmem | rfl
      · exact .inl (.inr ⟨call, hmem, hsource⟩)
      · exact .inr (Option.some.inj hsource).symm

theorem features_compile (source : String) (device : Device) :
    (device.compile source).2.features = device.features := by
  unfold compile
  cases device.compiler.answer source <;> rfl

end Device

/-! ### Engines -/

namespace Engine

/-- The device has been handed nothing more, and there are no arrays of further types. -/
structure Abides (before after : Engine) : Prop where
  device : before.device.Abides after.device
  arrays : ∀ entry ∈ after.arrays, ∃ old ∈ before.arrays, old.2.element = entry.2.element

variable {engine before after : Engine} {buffer : Nat} {array : ArrayState}

theorem Abides.of_device (hdevice : before.device.Abides after.device)
    (harrays : after.arrays = before.arrays) : Abides before after :=
  ⟨hdevice, fun entry hmem ↦ ⟨entry, harrays ▸ hmem, rfl⟩⟩

/-- Nothing has happened to the device and the arrays. -/
theorem Abides.of_same (hdevice : after.device = before.device)
    (harrays : after.arrays = before.arrays) : Abides before after :=
  .of_device (hdevice ▸ .refl before.device) harrays

theorem Abides.trans {middle : Engine} (hfirst : Abides before middle)
    (hlast : Abides middle after) : Abides before after := by
  refine ⟨hfirst.device.trans hlast.device, fun entry hmem ↦ ?_⟩
  obtain ⟨between, hbetween, helement⟩ := hlast.arrays entry hmem
  obtain ⟨old, hold, helement'⟩ := hfirst.arrays between hbetween
  exact ⟨old, hold, helement'.trans helement⟩

instance : Std.Refl Abides := ⟨fun _ ↦ .of_same rfl rfl⟩

instance : IsTrans Engine Abides := ⟨fun _ _ _ ↦ Abides.trans⟩

/-- An array is replaced by one of its type. -/
theorem abides_setArray (h : array.element = (engine.array buffer).element) :
    Abides engine (engine.setArray buffer array) where
  device := .refl engine.device
  arrays entry hmem := by
    obtain ⟨⟨key, old⟩, hold, rfl⟩ := List.mem_map.mp hmem
    by_cases hkey : key = buffer
    · obtain ⟨found, hfound⟩ := exists_lookup_of_mem (List.mem_map_of_mem hold)
      rw [hkey] at hfound
      refine ⟨(buffer, found), mem_of_lookup hfound, ?_⟩
      dsimp only
      rw [if_pos hkey, h, array_of_lookup hfound]
    · refine ⟨(key, old), hold, ?_⟩
      dsimp only
      rw [if_neg hkey]

theorem abides_release (buffer : Nat) (engine : Engine) :
    Abides engine (engine.release buffer) := by
  obtain ⟨-, h⟩ | ⟨-, pending, h, -⟩ := release_cases buffer engine
  · rw [h]
    exact refl_of Abides engine
  · have hset : Abides engine
        (engine.setArray buffer { engine.array buffer with released := true }) :=
      abides_setArray rfl
    rw [h]
    exact hset.trans (.of_same rfl rfl)

theorem abides_collect (arrays generators : List Nat) (engine : Engine) :
    Abides engine (engine.collect arrays generators) :=
  collect_of (fun _ _ ↦ .of_same rfl rfl) abides_release
    (fun _ engine ↦ ⟨.refl engine.device, fun entry hmem ↦
      ⟨entry, List.mem_of_mem_filter hmem, rfl⟩⟩)
    arrays generators engine

theorem abides_retire (serial : Int) (engine : Engine) : Abides engine (engine.retire serial) := by
  have hdestroyed (due : List (Nat × Nat)) (device : Device) :
      device.Abides
        (due.foldl (fun device entry ↦ device.record (.destroyBuffer entry.2)) device) := by
    induction due generalizing device with
    | nil => exact .refl device
    | cons entry rest ih => exact (Device.Abides.record rfl device).trans (ih _)
  exact .of_device (hdestroyed _ _) rfl

theorem abides_markLost (wanted : Bool) (reason message : Value) (engine : Engine) :
    Abides engine (engine.markLost wanted reason message) := by
  rcases markLost_cases wanted reason message engine with ⟨-, hsame⟩ | ⟨-, log, hmarked⟩
  · rw [hsame]
    exact refl_of Abides engine
  · rw [hmarked]
    exact .of_same rfl rfl

end Engine

/-! ### Actions that hand nothing over -/

theorem abides_changeArray (buffer : Nat) {change : ArrayState → ArrayState}
    (h : ∀ array, (change array).element = array.element) :
    Moves Abides (Action.changeArray buffer change) :=
  fun _ ↦ abides_setArray (h _)

theorem abides_changeDevice {change : Device → Device}
    (h : ∀ device : Device, device.Abides (change device)) :
    Moves Abides (Action.changeDevice change) :=
  fun engine ↦ .of_device (h engine.device) rfl

theorem abides_send (buffer : Nat) : Moves Abides (Action.send buffer) := by
  refine .bind (.array buffer) fun array ↦ ?_
  split
  · exact .pure _
  · exact .bind .assertActive fun _ ↦
      .bind (abides_changeDevice fun device ↦ (Device.Abides.setBytes _ _ device).trans
        (.record rfl _)) fun _ ↦ abides_changeArray buffer fun _ ↦ rfl

theorem abides_markDeviceDirty (buffer : Nat) : Moves Abides (Action.markDeviceDirty buffer) :=
  abides_changeArray buffer fun _ ↦ rfl

theorem abides_submitCommands (commands : List Command) :
    Moves Abides (Action.submitCommands commands) :=
  fun engine ↦ .of_device (.submit commands engine.device) rfl

theorem abides_retiring (serial : Int) : Moves Abides (modify (Engine.retire serial)) :=
  .update fun engine ↦ abides_retire serial engine

theorem abides_settle (serial : Nat) (helpers : List Nat) :
    Moves Abides (Action.settle serial helpers) := by
  refine .bind (.update fun _ ↦ .of_same rfl rfl) fun _ ↦ .bind .get fun engine ↦ ?_
  split
  · exact .bind (abides_changeDevice (.record rfl)) fun _ ↦ abides_retiring _
  · exact .pure _

theorem abides_createLayout (modes : List Mode) : Moves Abides (Action.createLayout modes) := by
  refine .bind .assertActive fun _ ↦ .bind .get fun engine ↦ ?_
  split
  · exact .pure _
  · exact .bind (fun _ ↦ .of_device (.of_push rfl rfl rfl rfl) rfl)
      fun _ ↦ .bind (.update fun _ ↦ .of_same rfl rfl) fun _ ↦ .pure _

theorem abides_stridesBuffer (strides : List Int) : Moves Abides (Action.stridesBuffer strides) :=
  .bind (.ofExcept _) fun _ ↦ .bind .assertActive fun _ ↦ fun _ ↦
    .of_device (.of_push rfl rfl rfl rfl) rfl

theorem abides_synchronize (blocking : Bool) : Moves Abides (Action.synchronize blocking) :=
  .bind .assertActive fun _ ↦ .bind .get fun _ ↦
    .bind (abides_changeDevice (.record rfl)) fun _ ↦ abides_retiring _

theorem abides_markLosing (arguments : List Value) : Moves Abides (Action.markLost arguments) :=
  .markLost abides_markLost arguments

theorem abides_destroy : Moves Abides Action.destroy :=
  .destroy abides_markLost fun _ ↦ .of_device (.record rfl _) rfl

/-! ### Loads and stores -/

theorem abides_createEncoder : Moves Abides (Action.changeDevice Device.createEncoder) :=
  abides_changeDevice fun _ ↦ ⟨rfl, fun _ ↦ id⟩

theorem abides_copyToStaging (buffer : Nat) : Moves Abides (Action.copyToStaging buffer) :=
  .bind .assertActive fun _ ↦ .bind (.array buffer) fun _ ↦ .bind .get fun _ ↦
    .bind (fun _ ↦ .of_device (.of_push rfl rfl rfl rfl) rfl) fun _ ↦
      .bind abides_createEncoder fun _ ↦ .bind (abides_submitCommands _) fun _ ↦ .pure _

theorem abides_mapStaging (readBack : ReadBack) (blocking : Bool) :
    Moves Abides (Action.mapStaging readBack blocking) :=
  abides_changeDevice fun device ↦ .record rfl device

theorem abides_finishReadBack (buffer : Nat) (readBack : ReadBack) :
    Moves Abides (Action.finishReadBack buffer readBack) := by
  refine .bind .get fun found ↦ .bind (abides_changeArray buffer fun _ ↦ rfl) fun _ ↦
    .bind (abides_changeDevice (.record rfl)) fun _ ↦
      .bind (abides_changeDevice (.record rfl)) fun _ ↦ .bind (abides_retiring _) fun _ ↦
        abides_changeArray buffer fun array ↦ ?_
  split <;> rfl

theorem abides_loadBlocking (buffer : Nat) : Moves Abides (Action.loadBlocking buffer) := by
  refine .bind (.array buffer) fun array ↦ ?_
  split
  · exact .pure _
  · exact .bind (abides_copyToStaging buffer) fun readBack ↦
      .bind (abides_mapStaging readBack true) fun _ ↦ abides_finishReadBack buffer readBack

theorem abides_setLoading (buffer : Nat) (loading : Loading) :
    Moves Abides (Action.setLoading buffer loading) :=
  abides_changeArray buffer fun _ ↦ rfl

theorem abides_requestLoad (buffer : Nat) : Moves Abides (Action.requestLoad buffer) := by
  refine .bind (.array buffer) fun array ↦ ?_
  split
  · exact abides_setLoading buffer .scheduled
  · exact .pure _

theorem abides_startLoad (buffer : Nat) : Moves Abides (Action.startLoad buffer) := by
  refine .bind (.array buffer) fun array ↦ ?_
  split
  · exact .bind (abides_setLoading buffer _) fun _ ↦ .bind (abides_copyToStaging buffer)
      fun readBack ↦ .bind (abides_mapStaging readBack false) fun _ ↦
        .bind (abides_setLoading buffer _) fun _ ↦ .pure _
  · exact .pure _

theorem abides_finishLoad (buffer : Nat) : Moves Abides (Action.finishLoad buffer) := by
  refine .bind (.array buffer) fun array ↦ ?_
  split
  · exact .bind (abides_setLoading buffer _) fun _ ↦ abides_finishReadBack buffer _
  · exact .pure _

theorem abides_load (buffer : Nat) : Moves Abides (Action.load buffer) :=
  .bind (abides_requestLoad buffer) fun _ ↦ .bind (abides_startLoad buffer) fun _ ↦
    abides_finishLoad buffer

theorem abides_updateArray (buffer : Nat) {update : ArrayState → Except Failure ArrayState}
    (h : ∀ array updated, update array = .ok updated → updated.element = array.element) :
    Moves Abides (Action.updateArray buffer update) := by
  intro engine
  rcases updateArray_cases engine buffer update with ⟨_, -, -, hstate⟩ | ⟨_, hupdated, -, hstate⟩
  · rw [hstate]
    exact refl_of Abides engine
  · rw [hstate]
    exact abides_setArray (h _ _ hupdated)

theorem abides_loadThenUpdate (buffer : Nat) {update : ArrayState → Except Failure ArrayState}
    (hstores : ∀ array : ArrayState, array.StoresBy update) :
    Moves Abides (loadThenUpdate buffer update) := by
  have hupdate : Moves Abides (Action.updateArray buffer update) := by
    refine abides_updateArray buffer fun array updated hupdated ↦ ?_
    obtain ⟨_, -, rfl⟩ := (hstores array).eq_ok hupdated
    rfl
  refine .bind (.array buffer) fun array ↦ ?_
  split
  · exact .bind (abides_loadBlocking buffer) fun _ ↦ hupdate
  · exact hupdate

theorem abides_setValue (buffer : Nat) (value : Value) (index : List Value) :
    Moves Abides (Action.setValue buffer value index) :=
  abides_loadThenUpdate buffer fun array ↦ array.storesBy_setValue index value

theorem abides_setElements (buffer : Nat) (values : List Nat) :
    Moves Abides (Action.setElements buffer values) :=
  abides_loadThenUpdate buffer fun array ↦ array.storesBy_setAll values

theorem abides_reshape (buffer : Nat) (extents : List Value) :
    Moves Abides (Action.reshape buffer extents) := by
  refine abides_updateArray buffer fun array updated hupdated ↦ ?_
  obtain ⟨shape, strides, rfl⟩ := ArrayState.reshape_eq_ok hupdated
  rfl

/-! ### Engines that gate half precision -/

/-- The source is one of the callers' own, or gated. -/
def Admitted (half : Bool) (own : List String) (source : String) : Prop :=
  source ∈ own ∨ Gated half source

namespace Engine

/-- Half precision is available or not, arrays have it only if it is, and all sources the device has
been handed are admitted. -/
structure Gates (half : Bool) (own : List String) (engine : Engine) : Prop where
  available : engine.hasHalf = half
  arrays : ∀ entry ∈ engine.arrays, entry.2.element = .f16 → half = true
  sources : ∀ source, engine.device.Handed source → Admitted half own source

/-- Half precision stays gated. -/
def Gating (half : Bool) (own : List String) (before after : Engine) : Prop :=
  before.Gates half own → after.Gates half own

variable {half : Bool} {own : List String} {engine before after : Engine}

instance : Std.Refl (Gating half own) := ⟨fun _ ↦ id⟩

instance : IsTrans Engine (Gating half own) := ⟨fun _ _ _ hfirst hlast ↦ hlast ∘ hfirst⟩

theorem Abides.gating (h : Abides before after) : Gating half own before after := by
  intro hgates
  refine ⟨?_, fun entry hmem helement ↦ ?_, fun source hhanded ↦ ?_⟩
  · rw [hasHalf, Device.hasHalf, h.device.features]
    exact hgates.available
  · obtain ⟨old, hold, hsame⟩ := h.arrays entry hmem
    exact hgates.arrays old hold (hsame.trans helement)
  · exact hgates.sources source (h.device.handed source hhanded)

theorem lookup_of_half {buffer : Nat} (h : (engine.array buffer).element = .f16) :
    engine.arrays.lookup buffer = some (engine.array buffer) := by
  unfold array at h ⊢
  cases hlookup : engine.arrays.lookup buffer with
  | some array => rfl
  | none =>
    rw [hlookup] at h
    cases h

theorem Gates.affords (h : engine.Gates half own) : engine.Affords half := fun _ helement ↦
  h.arrays _ (mem_of_lookup (lookup_of_half helement)) helement

end Engine

theorem Moves.gating {α : Type} {half : Bool} {own : List String} {m : Action α}
    (h : Moves Abides m) : Moves (Gating half own) m :=
  h.mono fun _ _ ↦ Abides.gating

/-! ### Compilations -/

variable {half : Bool} {own : List String} {source : String}

theorem gating_modify {change : Engine → Engine} (h : ∀ engine, Abides engine (change engine)) :
    Moves (Gating half own) (modify change : Action Unit) :=
  .gating (.update h)

theorem abides_review (source : String) (messages : List (String × String)) :
    Moves Abides (Action.review source messages) := by
  induction messages with
  | nil => exact .pure _
  | cons message rest ih =>
    unfold Action.review
    split
    · exact .bind (.throw _) fun _ ↦ .bind (.update fun _ ↦ .of_same rfl rfl) fun _ ↦ ih
    · exact .bind (.update fun _ ↦ .of_same rfl rfl) fun _ ↦ ih

section Admitted

variable (h : Admitted half own source)
include h

theorem gating_compile : Moves (Gating half own) (Action.onDevice (Device.compile source)) := by
  intro engine hgates
  rw [stateAfter_onDevice]
  refine ⟨?_, hgates.arrays, fun found hfound ↦ ?_⟩
  · rw [hasHalf, Device.hasHalf, Device.features_compile]
    exact hgates.available
  · rcases Device.handed_compile hfound with hfound | rfl
    · exact hgates.sources found hfound
    · exact h

theorem gating_createModule : Moves (Gating half own) (Action.createModule source) := by
  refine .bind .assertActive fun _ ↦ .bind .get fun engine ↦ ?_
  split
  · exact .pure _
  · refine .bind (gating_compile h) fun compiled ↦ ?_
    split
    · exact .throw _
    · exact .bind (abides_review _ _).gating fun _ ↦
        .bind (gating_modify fun _ ↦ .of_same rfl rfl) fun _ ↦ .pure _

theorem gating_buildPipeline (layout : Nat) (constants : List (String × Value)) :
    Moves (Gating half own) (Action.buildPipeline source layout constants) :=
  .bind (gating_createModule h) fun _ ↦
    .gating fun _ ↦ .of_device (.of_push rfl rfl rfl rfl) rfl

theorem gating_pipelineFor (signature : String) (layout : Nat)
    (constants : List (String × Value)) :
    Moves (Gating half own) (Action.pipelineFor source signature layout constants) := by
  unfold Action.pipelineFor
  split
  · refine .bind .get fun engine ↦ ?_
    split
    · exact .pure _
    · exact .bind (gating_buildPipeline h _ _) fun _ ↦
        .bind (gating_modify fun _ ↦ .of_same rfl rfl) fun _ ↦ .pure _
  · refine .bind (.ofExcept _) fun _ ↦ .bind .get fun engine ↦ ?_
    split
    · exact .bind (gating_modify fun _ ↦ .of_same rfl rfl) fun _ ↦ .pure _
    · exact .bind (gating_buildPipeline h _ _) fun _ ↦
        .bind (gating_modify fun _ ↦ .of_same rfl rfl) fun _ ↦ .pure _

theorem gating_createPipeline (modes : List Mode) (constants : List (String × Value)) :
    Moves (Gating half own) (Action.createPipeline source modes constants) :=
  .bind (abides_createLayout modes).gating fun _ ↦ .bind (gating_pipelineFor h _ _ _) fun _ ↦
    .pure _

end Admitted

/-- A submission hands the sources of its passes over. -/
theorem gating_submit {dispatches : List Dispatch}
    (h : ∀ dispatch ∈ dispatches, Admitted half own dispatch.source) (helpers : List Nat)
    (copies : List (Nat × Nat)) :
    Moves (Gating half own) (Action.submit dispatches helpers copies) := by
  have hencode (dispatch : Dispatch) (hmem : dispatch ∈ dispatches) :
      Moves (Gating half own) (Action.encode dispatch) :=
    .bind (gating_createPipeline (h dispatch hmem) _ _) fun _ ↦ .bind .get fun _ ↦
      .bind (.grid _) fun _ ↦ .pure _
  have hprepare : Moves (Gating half own) (Action.prepare dispatches copies) :=
    .bind (Moves.beginEncoding abides_send abides_createEncoder _).gating fun _ ↦
      .bind (.mapM _ hencode) fun _ ↦
        .bind (.mapM _ fun copy _ ↦ (Moves.encodeCopy abides_send copy).gating) fun _ ↦ .pure _
  have hhand (commands : List Command) :
      Moves Abides (Action.handOver dispatches copies commands) :=
    .bind (.forM _ fun buffer _ ↦ abides_markDeviceDirty buffer) fun _ ↦
      .bind (.forM _ fun buffer _ ↦ abides_markDeviceDirty buffer) fun _ ↦
        abides_submitCommands commands
  exact .bind .assertActive fun _ ↦ .bind hprepare fun commands ↦
    .bind (hhand commands).gating fun _ ↦ .bind (abides_settle _ _).gating fun _ ↦ .pure _

end ComputeArray
