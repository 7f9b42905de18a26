import ComputeArray.Proofs.Launch.Source
import ComputeArray.Proofs.Run.Reachable

/-!
# Layouts that last

Whatever happens to an engine, the array found at a buffer descends from the one that was made
there: it has as many elements of the same type, and its strides fit its shape (`inherits_after`).
So every array a caller has made is found in good order in all later states (`sound_of_made`).
-/

set_option autoImplicit false

namespace ComputeArray

open Engine

variable {engine before middle after : Engine} {buffer : Nat} {array old new : ArrayState}

namespace Shape

/-- Shapes have axes, and all extents are positive. -/
theorem ofValue_spec {value : Value} {shape : List Nat} (h : ofValue value = .ok shape) :
    shape ≠ [] ∧ ∀ extent ∈ shape, 0 < extent := by
  obtain ⟨extents, h⟩ : ∃ extents : List Int, (do
      if extents.isEmpty then throw .noAxes
      if extents.any (· ≤ 0) then throw (.notPositive extents)
      return extents.map Int.toNat : Except Failure (List Nat)) = .ok shape := by
    unfold ofValue at h
    split at h
    · exact ⟨[1], h⟩
    · obtain ⟨extents, -, h⟩ := bind_eq_ok.mp h
      exact ⟨extents, h⟩
  obtain ⟨hsome, h⟩ := guarded_eq_ok.mp h
  obtain ⟨hallowed, h⟩ := guarded_eq_ok.mp h
  cases h
  refine ⟨fun hnil ↦ hsome (List.isEmpty_iff.mpr (List.map_eq_nil_iff.mp hnil)),
    fun extent hmem ↦ ?_⟩
  obtain ⟨given, hgiven, rfl⟩ := List.mem_map.mp hmem
  have hpos := List.any_eq_false.mp (Bool.eq_false_iff.mpr hallowed) given hgiven
  rw [decide_eq_true_eq] at hpos
  omega

end Shape

theorem Layout.contiguous_toNat (shape : List Nat) :
    (contiguous (shape.map Int.ofNat)).map Int.toNat = Shape.steps shape := by
  rw [contiguous_eq, List.map_map]
  exact List.map_id' _

namespace ArrayState

/-- The later array has as many elements of the same type, laid out as well. -/
structure Descends (old new : ArrayState) : Prop where
  element : new.element = old.element
  count : new.count = old.count
  customStrides : new.customStrides = old.customStrides
  laid : old.WellLaid → new.WellLaid

/-- An array that is laid out well, and whose elements fill its storage. -/
structure Sound (array : ArrayState) : Prop where
  laid : array.WellLaid
  stored : storageBytes array.element array.count = .ok array.storage.size

namespace Descends

theorem of_layout (h : new.layout = old.layout) : old.Descends new := by
  simp only [layout, Prod.mk.injEq] at h
  obtain ⟨helement, hshape, hstrides, hcustom, hcount⟩ := h
  refine ⟨helement, hcount, hcustom, fun hlaid ↦ ⟨?_, ?_, ?_, ?_, ?_⟩⟩
  · rw [hshape]
    exact hlaid.nonempty
  · rw [hshape]
    exact hlaid.positive
  · rw [hshape, hstrides]
    exact hlaid.lengths
  · rw [hshape, hstrides, hcustom]
    exact hlaid.strides
  · rw [shapeInts, strideInts, hshape, hstrides, hcustom, hcount]
    exact hlaid.count

theorem refl (array : ArrayState) : array.Descends array := .of_layout rfl

theorem trans {between : ArrayState} (hfirst : old.Descends between)
    (hlast : between.Descends new) : old.Descends new where
  element := hlast.element.trans hfirst.element
  count := hlast.count.trans hfirst.count
  customStrides := hlast.customStrides.trans hfirst.customStrides
  laid hlaid := hlast.laid (hfirst.laid hlaid)

end Descends

/-- An array with row-major strides and as many elements as the machine counts is laid out well. -/
theorem wellLaid_of_contiguous (hne : array.shape ≠ []) (hpos : ∀ extent ∈ array.shape, 0 < extent)
    (hplain : array.customStrides = false)
    (hstrides : array.strides = (Layout.contiguous array.shapeInts).map Int.toNat)
    (hcount : array.length = .ok array.count) : array.WellLaid := by
  have hsteps : array.strides = Shape.steps array.shape :=
    hstrides.trans (Layout.contiguous_toNat array.shape)
  refine ⟨hne, hpos, by rw [hsteps, Shape.length_steps], fun _ ↦ hsteps, ?_⟩
  rw [if_neg (by rw [hplain]; exact Bool.false_ne_true)]
  exact hcount

/-- The machine words multiply the extents of a contiguous array out to its elements. -/
theorem WellLaid.length (h : array.WellLaid) (hplain : array.customStrides = false) :
    array.length = .ok array.count := by
  have hcount := h.count
  rwa [if_neg (by rw [hplain]; exact Bool.false_ne_true)] at hcount

theorem descends_of_reshape {shape : Value} (h : old.reshape shape = .ok new) :
    old.Descends new := by
  obtain ⟨hplain, extents, length, hextents, hcount, hlength, rfl⟩ := reshape_iff.mp h
  obtain ⟨hne, hpos⟩ := Shape.ofValue_spec hextents
  refine ⟨rfl, rfl, rfl, fun hlaid ↦ wellLaid_of_contiguous hne hpos hplain rfl ?_⟩
  change Layout.contiguousCount (extents.map Int.ofNat) = .ok old.count
  rw [hcount, ← hlength, hlaid.length hplain]

end ArrayState

/-! ### What an engine hands on -/

namespace Engine

/-- The later engine has the buffers of the earlier one, of the same sizes, and the arrays found
there descend from those that were. -/
structure Inherits (before after : Engine) : Prop where
  device : before.device.Extends after.device
  arrays : ∀ buffer, buffer ≤ before.device.buffers.size →
    ∀ new, after.arrays.lookup buffer = some new →
      ∃ old, before.arrays.lookup buffer = some old ∧ old.Descends new

namespace Inherits

theorem of_arrays (hdevice : before.device.Extends after.device)
    (harrays : ∀ buffer, after.arrays.lookup buffer = before.arrays.lookup buffer) :
    Inherits before after where
  device := hdevice
  arrays buffer _ new hnew := ⟨new, (harrays buffer).symm.trans hnew, .refl new⟩

theorem of_memory_eq (h : after.memory = before.memory) : Inherits before after := by
  obtain ⟨harrays, hbuffers⟩ := memory_eq_iff.mp h
  exact .of_arrays (.of_buffers_eq hbuffers) harrays

theorem refl (engine : Engine) : Inherits engine engine := .of_memory_eq rfl

theorem trans (hfirst : Inherits before middle) (hlast : Inherits middle after) :
    Inherits before after where
  device := ⟨Nat.le_trans hfirst.device.count hlast.device.count, fun buffer hle ↦ by
    rw [hlast.device.size buffer (Nat.le_trans hle hfirst.device.count),
      hfirst.device.size buffer hle]⟩
  arrays buffer hle new hnew := by
    obtain ⟨between, hbetween, hlater⟩ :=
      hlast.arrays buffer (Nat.le_trans hle hfirst.device.count) new hnew
    obtain ⟨old, hold, hearlier⟩ := hfirst.arrays buffer hle between hbetween
    exact ⟨old, hold, hearlier.trans hlater⟩

end Inherits

instance : Std.Refl Inherits := ⟨Inherits.refl⟩

instance : IsTrans Engine Inherits := ⟨fun _ _ _ ↦ Inherits.trans⟩

theorem inherits_setArray (h : (engine.array buffer).Descends array) :
    Inherits engine (engine.setArray buffer array) where
  device := .of_buffers_eq rfl
  arrays other _ new hnew := by
    rw [lookup_setArray] at hnew
    obtain ⟨old, hold, hsame⟩ := Option.map_eq_some_iff.mp hnew
    refine ⟨old, hold, ?_⟩
    by_cases hother : other = buffer
    · rw [if_pos hother] at hsame
      rw [← hsame, ← array_of_lookup hold, hother]
      exact h
    · rw [if_neg hother] at hsame
      exact hsame ▸ .refl old

theorem inherits_release (buffer : Nat) (engine : Engine) :
    Inherits engine (engine.release buffer) := by
  obtain ⟨-, h⟩ | ⟨-, pending, h, -⟩ := release_cases buffer engine
  · rw [h]
    exact .refl engine
  · have hset : Inherits engine
        (engine.setArray buffer { engine.array buffer with released := true }) :=
      inherits_setArray (.of_layout rfl)
    rw [h]
    exact hset.trans (.of_memory_eq rfl)

theorem inherits_collect (arrays generators : List Nat) (engine : Engine) :
    Inherits engine (engine.collect arrays generators) := by
  refine collect_of (fun _ _ ↦ .of_memory_eq rfl) inherits_release (fun keep engine ↦ ?_)
    arrays generators engine
  exact ⟨.of_buffers_eq rfl, fun buffer _ new hnew ↦
    ⟨new, lookup_of_lookup_filter hnew, .refl new⟩⟩

/-- A new array comes to be at a new buffer, and is none of those there were. -/
theorem inherits_allocated (size : Nat) (array : ArrayState) (engine : Engine) :
    Inherits engine (engine.allocated size array) where
  device := Device.extends_createBuffer size Device.storageUsage engine.device
  arrays buffer hle new hnew := by
    rcases lookup_of_lookup_append_singleton hnew with hold | ⟨rfl, -⟩
    · exact ⟨new, hold, .refl new⟩
    · exact absurd hle (Nat.not_succ_le_self _)

end Engine

/-! ### Actions -/

theorem inherits_changeArray (buffer : Nat) {change : ArrayState → ArrayState}
    (h : ∀ array, (change array).layout = array.layout) :
    Moves Inherits (Action.changeArray buffer change) :=
  fun _ ↦ inherits_setArray (.of_layout (h _))

theorem inherits_changeDevice {change : Device → Device}
    (h : ∀ device : Device, device.Extends (change device)) :
    Moves Inherits (Action.changeDevice change) :=
  fun engine ↦ .of_arrays (h engine.device) fun _ ↦ rfl

theorem inherits_record (call : Call) : Moves Inherits (Action.changeDevice (Device.record call)) :=
  inherits_changeDevice fun _ ↦ .of_buffers_eq rfl

theorem inherits_of_compiles (h : Compiles before after) : Inherits before after :=
  .of_memory_eq (memory_eq_iff.mpr ⟨fun _ ↦ by rw [h.arrays], h.buffers⟩)

theorem inherits_send (buffer : Nat) : Moves Inherits (Action.send buffer) := by
  refine .bind (.array buffer) fun array ↦ ?_
  split
  · exact .pure _
  · exact .bind .assertActive fun _ ↦
      .bind (inherits_changeDevice fun device ↦ (device.sameOutside_write buffer _).extends)
        fun _ ↦ inherits_changeArray buffer fun _ ↦ rfl

theorem inherits_markDeviceDirty (buffer : Nat) : Moves Inherits (Action.markDeviceDirty buffer) :=
  inherits_changeArray buffer fun _ ↦ rfl

theorem inherits_submitCommands (commands : List Command) :
    Moves Inherits (Action.submitCommands commands) :=
  fun engine ↦ .of_arrays (Device.sameOutside_submit commands engine.device).extends fun _ ↦ rfl

theorem inherits_settle (serial : Nat) (helpers : List Nat) :
    Moves Inherits (Action.settle serial helpers) :=
  fun engine ↦ .of_memory_eq (memory_settle serial helpers engine)

theorem inherits_submit (dispatches : List Dispatch) (helpers : List Nat)
    (copies : List (Nat × Nat)) : Moves Inherits (Action.submit dispatches helpers copies) :=
  .submit inherits_send (compiles_createEncoder.mono fun _ _ ↦ inherits_of_compiles)
    (fun dispatch ↦ (compiles_encode dispatch).mono fun _ _ ↦ inherits_of_compiles)
    inherits_markDeviceDirty inherits_submitCommands inherits_settle dispatches helpers copies

theorem inherits_copyToStaging (buffer : Nat) : Moves Inherits (Action.copyToStaging buffer) := by
  refine .bind .assertActive fun _ ↦ .bind (.array buffer) fun _ ↦ .bind .get fun found ↦
    .bind (fun engine ↦ ?_) fun _ ↦
      .bind (compiles_createEncoder.mono fun _ _ ↦ inherits_of_compiles) fun _ ↦
        .bind (inherits_submitCommands _) fun _ ↦ .pure _
  exact .of_arrays (Device.extends_createBuffer _ _ _) fun _ ↦ rfl

theorem inherits_mapStaging (readBack : ReadBack) (blocking : Bool) :
    Moves Inherits (Action.mapStaging readBack blocking) :=
  inherits_changeDevice fun _ ↦ .of_buffers_eq rfl

theorem inherits_finishReadBack (buffer : Nat) (readBack : ReadBack) :
    Moves Inherits (Action.finishReadBack buffer readBack) := by
  refine .bind .get fun found ↦ .bind (inherits_changeArray buffer fun _ ↦ rfl) fun _ ↦
    .bind (inherits_record _) fun _ ↦ .bind (inherits_record _) fun _ ↦
      .bind (.update fun engine ↦ .of_memory_eq (memory_retire _ engine)) fun _ ↦
        inherits_changeArray buffer fun array ↦ ?_
  split <;> rfl

theorem inherits_loadBlocking (buffer : Nat) : Moves Inherits (Action.loadBlocking buffer) := by
  refine .bind (.array buffer) fun array ↦ ?_
  split
  · exact .pure _
  · exact .bind (inherits_copyToStaging buffer) fun readBack ↦
      .bind (inherits_mapStaging readBack true) fun _ ↦ inherits_finishReadBack buffer readBack

theorem inherits_setLoading (buffer : Nat) (loading : Loading) :
    Moves Inherits (Action.setLoading buffer loading) :=
  inherits_changeArray buffer fun _ ↦ rfl

theorem inherits_requestLoad (buffer : Nat) : Moves Inherits (Action.requestLoad buffer) := by
  refine .bind (.array buffer) fun array ↦ ?_
  split
  · exact inherits_setLoading buffer .scheduled
  · exact .pure _

theorem inherits_startLoad (buffer : Nat) : Moves Inherits (Action.startLoad buffer) := by
  refine .bind (.array buffer) fun array ↦ ?_
  split
  · exact .bind (inherits_setLoading buffer _) fun _ ↦
      .bind (inherits_copyToStaging buffer) fun readBack ↦
        .bind (inherits_mapStaging readBack false) fun _ ↦
          .bind (inherits_setLoading buffer _) fun _ ↦ .pure _
  · exact .pure _

theorem inherits_finishLoad (buffer : Nat) : Moves Inherits (Action.finishLoad buffer) := by
  refine .bind (.array buffer) fun array ↦ ?_
  split
  · exact .bind (inherits_setLoading buffer _) fun _ ↦ inherits_finishReadBack buffer _
  · exact .pure _

theorem inherits_updateArray (buffer : Nat) {update : ArrayState → Except Failure ArrayState}
    (h : ∀ array updated, update array = .ok updated → array.Descends updated) :
    Moves Inherits (Action.updateArray buffer update) := by
  intro engine
  rcases updateArray_cases engine buffer update with ⟨_, -, -, hstate⟩ | ⟨_, hupdated, -, hstate⟩
  · rw [hstate]
    exact .refl engine
  · rw [hstate]
    exact inherits_setArray (h _ _ hupdated)

theorem inherits_loadThenUpdate (buffer : Nat) {update : ArrayState → Except Failure ArrayState}
    (hstores : ∀ array : ArrayState, array.StoresBy update) :
    Moves Inherits (loadThenUpdate buffer update) := by
  have hupdate : Moves Inherits (Action.updateArray buffer update) := by
    refine inherits_updateArray buffer fun array updated hupdated ↦ ?_
    obtain ⟨_, -, rfl⟩ := (hstores array).eq_ok hupdated
    exact .of_layout rfl
  refine .bind (.array buffer) fun array ↦ ?_
  split
  · exact .bind (inherits_loadBlocking buffer) fun _ ↦ hupdate
  · exact hupdate

theorem inherits_allocate (element : ElementType) (shape strides : List Nat) (customStrides : Bool)
    (count : Int) : Moves Inherits (Action.allocate element shape strides customStrides count) := by
  intro engine
  rcases allocate_cases element shape strides customStrides count engine with
    ⟨-, hsame⟩ | ⟨size, -, -, -, hafter⟩
  · rw [hsame]
    exact .refl engine
  · rw [hafter]
    exact inherits_allocated size _ engine

/-- Every primitive hands the arrays on. -/
theorem inherits_after (primitive : Primitive) (engine : Engine) :
    Inherits engine (engine.after primitive) := by
  cases primitive with
  | allocate element shape strides customStrides count =>
    rw [after_allocate]
    exact inherits_allocate _ _ _ _ _ engine
  | stridesBuffer strides =>
    rw [after_stridesBuffer]
    exact (Moves.bind (.ofExcept _) fun _ ↦ .bind .assertActive fun _ ↦ fun _ ↦
      .of_arrays (.of_push rfl) fun _ ↦ rfl : Moves Inherits (Action.stridesBuffer strides)) engine
  | submit dispatches helpers copies =>
    rw [after_submit]
    exact inherits_submit dispatches helpers copies engine
  | setValue buffer value index =>
    exact inherits_loadThenUpdate buffer (fun array ↦ array.storesBy_setValue index value) engine
  | setElements buffer values =>
    exact inherits_loadThenUpdate buffer (fun array ↦ array.storesBy_setAll values) engine
  | reshape buffer extents =>
    exact inherits_updateArray buffer (fun _ _ ↦ ArrayState.descends_of_reshape) engine
  | send buffer => exact inherits_send buffer engine
  | loadBlocking buffer => exact inherits_loadBlocking buffer engine
  | load buffer =>
    exact (Moves.bind (inherits_requestLoad buffer) fun _ ↦ .bind (inherits_startLoad buffer)
      fun _ ↦ inherits_finishLoad buffer : Moves Inherits (Action.load buffer)) engine
  | createLayout modes =>
    rw [after_createLayout]
    exact inherits_of_compiles (compiles_createLayout modes engine)
  | createModule source =>
    rw [after_createModule]
    exact inherits_of_compiles (compiles_createModule source engine)
  | createPipeline source modes constants =>
    rw [after_createPipeline]
    exact inherits_of_compiles (compiles_createPipeline source modes constants engine)
  | release buffer => exact inherits_release buffer engine
  | collect arrays generators => exact inherits_collect arrays generators engine
  | setGenerator state generator => exact .of_memory_eq rfl
  | addGenerator state generator => exact .of_memory_eq rfl
  | synchronize blocking => exact .of_memory_eq (memory_synchronize blocking engine)
  | retire serial => exact .of_memory_eq (memory_retire serial engine)
  | markLost arguments => exact .of_memory_eq (memory_markLostAction arguments engine)
  | destroy => exact .of_memory_eq (memory_destroy engine)
  | setCompiler compiler => exact .of_memory_eq rfl
  | requestLoad buffer => exact inherits_requestLoad buffer engine
  | startLoad buffer =>
    rw [after_startLoad]
    exact inherits_startLoad buffer engine
  | finishLoad buffer => exact inherits_finishLoad buffer engine
  | markDeviceDirty buffer => exact inherits_markDeviceDirty buffer engine
  | poke buffer start bytes =>
    exact inherits_changeDevice (fun device ↦ (Device.sameOutside_setBytes
      (Bytes.size_overwrite _ start bytes)).extends) engine
  | replaceCalls calls => exact .of_memory_eq rfl

theorem Engine.Reachable.leads (h : before.Reachable) (hleads : Leads Primitive.Any before after) :
    after.Reachable := by
  obtain ⟨primitives, -, rfl⟩ := hleads
  exact h.afterAll primitives

theorem inherits_of_leads {allowed : Primitive → Prop} (h : Leads allowed before after) :
    Inherits before after := by
  obtain ⟨primitives, -, rfl⟩ := h
  clear allowed
  induction primitives generalizing before with
  | nil => exact .refl before
  | cons primitive rest ih => exact (inherits_after primitive before).trans ih

/-! ### New arrays -/

@[simp] theorem stateAfter_checkElement (element : ElementType) (engine : Engine) :
    stateAfter (Action.checkElement element) engine = engine := by
  unfold Action.checkElement
  rw [stateAfter_bind_of_ok (outcomeOf_get engine), stateAfter_get]
  split <;> rfl

/-- An array that is made with strides has them. -/
theorem newArray_of_strides {shape name strides : Value} (hcustom : strides ≠ .none)
    (h : outcomeOf (Action.newArray shape name strides) engine = .ok buffer) :
    ∃ element extents given, Shape.ofValue shape = .ok extents ∧
      Layout.stridesOfValue strides extents.length = .ok given ∧
      let count := Layout.spannedCount (extents.map Int.ofNat) (given.map Int.ofNat)
      ∃ size, storageBytes element count = .ok size ∧ buffer = engine.nextBuffer ∧
        stateAfter (Action.newArray shape name strides) engine =
          engine.allocated size (.fresh element extents given true count size) := by
  unfold Action.newArray at h ⊢
  simp only [outcomeOf_bind_eq_ok, outcomeOf_actionOfExcept, stateAfter_actionOfExcept,
    stateAfter_assertActive] at h
  obtain ⟨_, hactive, element, helement, _, hcheck, extents, hextents, given, hgiven, h⟩ := h
  rw [stateAfter_checkElement] at h
  obtain ⟨size, hsize, -, hbuffer, hafter⟩ := allocate_eq_ok h
  refine ⟨element, extents, given, hextents, hgiven, size, hsize, hbuffer, ?_⟩
  rw [stateAfter_bind_of_ok hactive, stateAfter_assertActive,
    stateAfter_bind_of_ok ((outcomeOf_actionOfExcept _ _).trans helement),
    stateAfter_actionOfExcept, stateAfter_bind_of_ok hcheck, stateAfter_checkElement,
    stateAfter_bind_of_ok ((outcomeOf_actionOfExcept _ _).trans hextents),
    stateAfter_actionOfExcept]
  dsimp only
  split
  · exact absurd rfl hcustom
  · rw [stateAfter_bind_of_ok ((outcomeOf_actionOfExcept _ _).trans hgiven),
      stateAfter_actionOfExcept, hafter]

theorem length_of_stridesOfValue {value : Value} {axes : Nat} {strides : List Nat}
    (h : Layout.stridesOfValue value axes = .ok strides) : strides.length = axes := by
  unfold Layout.stridesOfValue at h
  obtain ⟨given, -, h⟩ := bind_eq_ok.mp h
  obtain ⟨hlength, h⟩ := guarded_eq_ok.mp h
  obtain ⟨-, h⟩ := guarded_eq_ok.mp h
  cases h
  rw [List.length_map]
  exact not_not.mp hlength

/-- What a caller is given for a shape, an element type and strides is laid out well. -/
theorem newArray_laid {shape name strides : Value}
    (h : outcomeOf (Action.newArray shape name strides) engine = .ok buffer) :
    ∃ size array, storageBytes array.element array.count = .ok size ∧ array.WellLaid ∧
      (array.customStrides = false ↔ strides = .none) ∧ buffer = engine.nextBuffer ∧
        stateAfter (Action.newArray shape name strides) engine = engine.allocated size array := by
  by_cases hplain : strides = .none
  · subst hplain
    obtain ⟨element, extents, count, size, -, hextents, hcount, hsize, -, hbuffer, hstate⟩ :=
      newArray_eq_ok h
    obtain ⟨hne, hpos⟩ := Shape.ofValue_spec hextents
    refine ⟨size, _, ?_, ?_, ?_, hbuffer, hstate⟩
    · exact hsize
    · exact ArrayState.wellLaid_of_contiguous hne hpos rfl rfl hcount
    · exact ⟨fun _ ↦ rfl, fun _ ↦ rfl⟩
  · obtain ⟨element, extents, given, hextents, hgiven, size, hsize, hbuffer, hstate⟩ :=
      newArray_of_strides hplain h
    obtain ⟨hne, hpos⟩ := Shape.ofValue_spec hextents
    refine ⟨size, _, ?_, ?_, ?_, hbuffer, hstate⟩
    · exact hsize
    · exact ⟨hne, hpos, length_of_stridesOfValue hgiven, nofun, rfl⟩
    · exact ⟨nofun, fun hnone ↦ absurd hnone hplain⟩

/-- Whatever has happened since a caller made an array, what is found at its buffer is laid out
well, and its elements fill its storage. -/
theorem sound_of_made {shape name strides : Value} (hreachable : before.Reachable)
    (hmade : outcomeOf (Action.newArray shape name strides) before = .ok buffer)
    (hleads : Leads Primitive.Any (stateAfter (Action.newArray shape name strides) before) after)
    (hfound : after.arrays.lookup buffer = some array) :
    array.Sound ∧ (array.customStrides = false ↔ strides = .none) := by
  have hafter : after.Reachable := (hreachable.leads ((madeOf_newArray shape name strides
    before).mono fun _ _ ↦ trivial)).leads hleads
  obtain ⟨size, made, hsize, hlaid, hplain, rfl, hstate⟩ := newArray_laid hmade
  rw [hstate] at hleads
  have hinherits := inherits_of_leads hleads
  have hcount : before.nextBuffer ≤ (before.allocated size made).device.buffers.size :=
    Nat.le_of_eq (Array.size_push _).symm
  obtain ⟨old, hold, hdescends⟩ := hinherits.arrays _ hcount _ hfound
  have hnumbered : before.Numbered := fun other found hlookup ↦
    Nat.lt_succ_of_le (hreachable.fitting other found hlookup).le
  obtain rfl : made = old := Option.some.inj (hnumbered.lookup_allocated.symm.trans hold)
  have hsize' : array.storage.size = size := by
    rw [(hafter.fitting _ _ hfound).size, hinherits.device.size _ hcount]
    exact congrArg Bytes.size (Device.bytesOf_push_new _ _)
  refine ⟨⟨hdescends.laid hlaid, ?_⟩, by rw [hdescends.customStrides, hplain]⟩
  rw [hdescends.element, hdescends.count, hsize', hsize]

end ComputeArray
