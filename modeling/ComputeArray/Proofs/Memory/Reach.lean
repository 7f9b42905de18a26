import ComputeArray.Proofs.Memory.Fitting

/-!
# The reach of primitive actions

The buffers each primitive may alter: those a submission writes, the array it stores in, loads or
marks, and the buffer it pokes. All others it leaves alone, whatever loads are under way
(`confined_after`).
-/

set_option autoImplicit false

namespace ComputeArray

open Engine

variable {touched : Nat → Prop} {engine : Engine} {buffer : Nat} {array : ArrayState}

/-! ### Transfers -/

theorem confined_sent (h : (engine.array buffer).hostDirty = true) :
    Confined touched engine (engine.sent buffer) := by
  have hfound := exists_lookup_of_hostDirty h
  have hdevice := Device.sameOutside_write engine.device buffer (engine.array buffer).storage
  have hlookup := lookup_sent hfound
  refine .of_array buffer hdevice.extends (fun other hother ↦ lookup_setArray_of_ne _ hother)
    (fun other hother _ ↦ hdevice.bytes other hother) (fun new hnew ↦ ?_)
    fun _ hnone ↦ by rw [hfound] at hnone; cases hnone
  obtain rfl := Option.some.inj (hnew.symm.trans hlookup)
  refine ⟨_, hfound, fun hfits ↦
    ⟨?_, fun _ ↦ ⟨rfl, rfl, rfl, rfl, fun hdirty ↦ (by cases hdirty), ?_⟩⟩⟩
  · refine ⟨hfits.pos, ?_, hfits.size.trans (hdevice.size buffer).symm, ?_, ?_⟩
    · exact Nat.le_trans hfits.le hdevice.extends.count
    · rintro ⟨hdirty, -⟩
      cases hdirty
    · exact (hfits.of_extends hdevice.extends).staging
  · rw [content_of_lookup hlookup, content, if_pos h]
    change (engine.device.write buffer _).bytesOf buffer = _
    rw [Device.write, Device.bytesOf_record, Device.bytesOf_setBytes_self _ hfits.pos hfits.le,
      Bytes.overwrite_of_size_eq hfits.size]

theorem confined_send (buffer : Nat) : Moves (Confined touched) (Action.send buffer) := by
  intro engine
  rcases send_cases engine buffer with ⟨-, -, h⟩ | ⟨-, -, h⟩ | ⟨hdirty, -, h⟩
  · rw [h]
    exact .refl engine
  · rw [h]
    exact .refl engine
  · rw [h]
    exact confined_sent hdirty

theorem extends_staged (engine : Engine) (buffer : Nat) :
    engine.device.Extends (engine.staged buffer).device :=
  ⟨by rw [count_staged]; exact Nat.le_succ _, fun other hle ↦ by
    rw [Device.sizeOf, Device.sizeOf, bytesOf_staged engine buffer hle]⟩

theorem confined_staged (engine : Engine) (buffer : Nat) :
    Confined touched engine (engine.staged buffer) :=
  .of_device (fun _ ↦ rfl) (extends_staged engine buffer) fun _ hle ↦
    bytesOf_staged engine buffer hle

/-- A new staging buffer has the size of the buffer copied into it. -/
theorem sizeOf_staging (hle : buffer ≤ engine.device.buffers.size) :
    (engine.staged buffer).device.sizeOf (engine.device.buffers.size + 1) =
      (engine.staged buffer).device.sizeOf buffer := by
  rw [(extends_staged engine buffer).size buffer hle]
  exact (same_staging engine buffer hle).1

/-- A load on an engine whose copies fit: the staged bytes have the size of the device buffer. -/
theorem confined_loaded (engine : Engine) (buffer : Nat) :
    Confined (· = buffer) engine (engine.loaded buffer) := by
  refine .of_fitting fun hfitting ↦ (confined_staged engine buffer).trans ?_
  refine confined_setArray fun old hold hfits ↦ ⟨?_, fun htouched ↦ absurd rfl htouched⟩
  rw [arrays_staged] at hold
  have hengine := hfitting buffer old hold
  rw [array_of_lookup hold]
  refine ⟨hfits.pos, hfits.le, sizeOf_staging hengine.le, ?_, hfits.staging⟩
  rintro ⟨-, hdevice⟩
  cases hdevice

theorem confined_loadBlocking (buffer : Nat) :
    Moves (Confined (· = buffer)) (Action.loadBlocking buffer) := by
  intro engine
  rcases loadBlocking_cases engine buffer with ⟨-, -, h⟩ | ⟨-, -, -, h⟩ | ⟨-, -, -, h⟩
  · rw [h]
    exact .refl engine
  · rw [h]
    exact .refl engine
  · exact (confined_loaded engine buffer).trans (.of_memory_eq h)

/-! ### Asynchronous loads -/

theorem confined_setLoading {loading : Loading}
    (hstaging : ∀ readBack, loading = .copying readBack →
      readBack.staging ≤ engine.device.buffers.size ∧
        engine.device.sizeOf readBack.staging = engine.device.sizeOf buffer) :
    Confined (· = buffer) engine (stateAfter (Action.setLoading buffer loading) engine) := by
  refine confined_setArray fun old hold hfits ↦ ⟨?_, fun htouched ↦ absurd rfl htouched⟩
  rw [array_of_lookup hold]
  exact ⟨hfits.pos, hfits.le, hfits.size, hfits.exclusive, hstaging⟩

theorem confined_requestLoad (buffer : Nat) :
    Moves (Confined (· = buffer)) (Action.requestLoad buffer) := by
  refine .bind (.array buffer) fun array ↦ ?_
  split
  · exact fun engine ↦ confined_setLoading fun _ h ↦ by cases h
  · exact .pure _

/-- Only a scheduled load starts. -/
theorem startLoad_of_not_scheduled (h : (engine.array buffer).loading ≠ .scheduled) :
    stateAfter (Action.startLoad buffer) engine = engine ∧
      outcomeOf (Action.startLoad buffer) engine = .ok false := by
  simp only [Action.startLoad, outcomeOf_bind, stateAfter_bind, outcomeOf_array, stateAfter_array]
  cases hloading : (engine.array buffer).loading with
  | scheduled => exact absurd hloading h
  | _ => exact ⟨rfl, rfl⟩

theorem confined_startLoad (buffer : Nat) :
    Moves (Confined (· = buffer)) (Action.startLoad buffer) := by
  intro engine
  by_cases hloading : (engine.array buffer).loading = .scheduled
  · have hlookup := exists_lookup_of_loading (by rw [hloading]; nofun)
    rcases startLoad_cases hlookup hloading with ⟨-, -, h⟩ | ⟨-, -, h⟩
    · have hidle : Confined (· = buffer) engine
          (stateAfter (Action.setLoading buffer .idle) engine) :=
        confined_setLoading fun _ h ↦ by cases h
      exact hidle.trans (.of_memory_eq h)
    · refine .of_fitting fun hfitting ↦ ?_
      have hle := (hfitting buffer _ hlookup).le
      have hcopying : Confined (· = buffer) (engine.staged buffer)
          (stateAfter (Action.setLoading buffer (.copying ⟨engine.device.buffers.size + 1,
            engine.serial + 1, (engine.array buffer).version⟩)) (engine.staged buffer)) := by
        refine confined_setLoading fun readBack hreadBack ↦ ?_
        cases hreadBack
        exact ⟨Nat.le_of_eq (count_staged engine buffer).symm, sizeOf_staging hle⟩
      exact ((confined_staged engine buffer).trans hcopying).trans (.of_memory_eq h)
  · rw [(startLoad_of_not_scheduled hloading).1]
    exact .refl engine

/-- Only a load whose copy is on its way is finished. -/
theorem finishLoad_of_not_copying
    (h : ∀ readBack, (engine.array buffer).loading ≠ .copying readBack) :
    stateAfter (Action.finishLoad buffer) engine = engine ∧
      outcomeOf (Action.finishLoad buffer) engine = .ok ⟨⟩ := by
  simp only [Action.finishLoad, outcomeOf_bind, stateAfter_bind, outcomeOf_array,
    stateAfter_array]
  cases hloading : (engine.array buffer).loading with
  | copying readBack => exact absurd hloading (h readBack)
  | _ => exact ⟨rfl, rfl⟩

theorem confined_finishLoad (buffer : Nat) :
    Moves (Confined (· = buffer)) (Action.finishLoad buffer) := by
  intro engine
  by_cases hcopying : ∃ readBack, (engine.array buffer).loading = .copying readBack
  · obtain ⟨readBack, hloading⟩ := hcopying
    have hlookup := exists_lookup_of_loading (by rw [hloading]; nofun)
    refine .of_fitting fun hfitting ↦ Confined.trans
      (confined_setArray fun old hold hfits ↦ ⟨?_, fun htouched ↦ absurd rfl htouched⟩)
      (.of_memory_eq (memory_finishLoad hlookup hloading).2)
    rw [array_of_lookup hold] at hloading ⊢
    refine ⟨hfits.pos, hfits.le, (hfits.staging readBack hloading).2, fun h ↦ ?_, nofun⟩
    refine hfits.exclusive ⟨h.1, ?_⟩
    have hdirty : (if old.version = readBack.version then false else old.deviceDirty) = true := h.2
    split at hdirty
    · cases hdirty
    · exact hdirty
  · rw [(finishLoad_of_not_copying fun readBack h ↦ hcopying ⟨readBack, h⟩).1]
    exact .refl engine

theorem confined_load (buffer : Nat) : Moves (Confined (· = buffer)) (Action.load buffer) :=
  .bind (confined_requestLoad buffer) fun _ ↦ .bind (confined_startLoad buffer) fun _ ↦
    confined_finishLoad buffer

/-! ### Access -/

theorem confined_updateArray {update : ArrayState → Except Failure ArrayState}
    (hstores : ∀ array : ArrayState, array.StoresBy update)
    (hclean : (engine.array buffer).deviceDirty = false) :
    Confined (· = buffer) engine (stateAfter (Action.updateArray buffer update) engine) := by
  rcases updateArray_cases engine buffer update with ⟨-, -, -, h⟩ | ⟨updated, hupdated, -, h⟩
  · rw [h]
    exact .refl engine
  · rw [h]
    refine confined_setArray fun old hold hfits ↦ ⟨?_, fun htouched ↦ absurd rfl htouched⟩
    rw [array_of_lookup hold] at hupdated hclean
    obtain ⟨storage, hsize, rfl⟩ := (hstores old).eq_ok hupdated
    refine ⟨hfits.pos, hfits.le, hsize.trans hfits.size, ?_, hfits.staging⟩
    rintro ⟨-, hdirty⟩
    rw [hclean] at hdirty
    cases hdirty

theorem confined_loadThenUpdate {update : ArrayState → Except Failure ArrayState}
    (hstores : ∀ array : ArrayState, array.StoresBy update) :
    Moves (Confined (· = buffer)) (loadThenUpdate buffer update) := by
  intro engine
  have hloaded := confined_loadBlocking buffer engine
  rw [(loadThenUpdate_run engine buffer update).1, stateAfter_bind]
  cases houtcome : outcomeOf (Action.loadBlocking buffer) engine with
  | error failure => exact hloaded
  | ok done =>
    exact hloaded.trans (confined_updateArray hstores (deviceDirty_of_loadBlocking houtcome))

theorem confined_reshape (buffer : Nat) (extents : List Value) :
    Moves (Confined touched) (Action.reshape buffer extents) := by
  intro engine
  unfold Action.reshape
  dsimp only
  rcases updateArray_cases engine buffer fun array ↦ array.reshape _ with
    ⟨-, -, -, h⟩ | ⟨updated, hupdated, -, h⟩
  · rw [h]
    exact .refl engine
  · rw [h]
    refine confined_setArray_of_eq fun old hold ↦ ?_
    rw [array_of_lookup hold] at hupdated
    obtain ⟨_, _, rfl⟩ := ArrayState.reshape_eq_ok hupdated
    exact ⟨rfl, rfl, rfl, rfl, rfl⟩

/-! ### Submissions -/

theorem Engine.Confined.of_compiles {first last : Engine} (h : Compiles first last) :
    Confined touched first last :=
  .of_memory_eq (memory_eq_iff.mpr ⟨fun _ ↦ by rw [h.arrays], h.buffers⟩)

theorem confined_prepare (dispatches : List Dispatch) (copies : List (Nat × Nat)) :
    Moves (Confined touched) (Action.prepare dispatches copies) :=
  .prepare confined_send (compiles_createEncoder.mono fun _ _ ↦ .of_compiles)
    (fun dispatch ↦ (compiles_encode dispatch).mono fun _ _ ↦ .of_compiles) _ _

/-- What is marked as written, and what commands write, may be altered. -/
theorem confined_submitted {buffers : List Nat} {commands : List Command} {marked : Engine}
    (hmarked : MarkedAll buffers engine marked) (hmarks : ∀ buffer ∈ buffers, touched buffer)
    (hwrites : ∀ command ∈ commands, ∀ buffer, command.Writes engine.device buffer →
      touched buffer) :
    Confined touched engine (stateAfter (Action.submitCommands commands) marked) := by
  have hsubmit := Device.sameOutside_submit commands engine.device
  change Confined touched engine
    { marked with device := marked.device.submit commands, serial := marked.serial + 1 }
  have hextends : engine.device.Extends (marked.device.submit commands) := by
    rw [hmarked.device]
    exact hsubmit.extends
  have hbytes : ∀ buffer, ¬ touched buffer →
      (marked.device.submit commands).bytesOf buffer = engine.device.bytesOf buffer := by
    intro buffer htouched
    rw [hmarked.device]
    exact hsubmit.bytes buffer fun ⟨command, hmem, h⟩ ↦ htouched (hwrites command hmem buffer h)
  intro hfitting
  refine ⟨fun buffer array hlookup ↦ ?_, hextends.count, fun buffer hle htouched ↦
    ⟨fun new hnew ↦ ?_, fun _ ↦ hbytes buffer htouched⟩⟩
  · by_cases hin : buffer ∈ buffers
    · obtain ⟨old, hold, hnew⟩ := hmarked.marked buffer hin array hlookup
      have hfits := (hfitting buffer old hold).of_extends hextends
      refine ⟨hfits.pos, hfits.le, by rw [hnew.storage]; exact hfits.size, ?_,
        by rw [hnew.loading]; exact hfits.staging⟩
      rw [hnew.hostDirty]
      rintro ⟨h, -⟩
      cases h
    · have hold := (hmarked.others buffer hin).symm.trans hlookup
      exact (hfitting buffer array hold).of_extends hextends
  · have hold := (hmarked.others buffer fun hin ↦ htouched (hmarks buffer hin)).symm.trans hnew
    refine ⟨new, hold, rfl, rfl, rfl, rfl, id, ?_⟩
    rw [content_of_lookup hnew, content_of_lookup hold]
    exact if_congr Iff.rfl rfl (hbytes buffer htouched)

/-- A submission alters what it writes. -/
theorem confined_submit {dispatches : List Dispatch} (helpers : List Nat)
    (copies : List (Nat × Nat))
    (hwrites : ∀ commands, outcomeOf (Action.prepare dispatches copies) engine = .ok commands →
      ∀ command ∈ commands, ∀ buffer, command.Writes
        (stateAfter (Action.prepare dispatches copies) engine).device buffer → touched buffer)
    (hmarks : ∀ buffer ∈ writtenBy dispatches copies, touched buffer) :
    Confined touched engine (stateAfter (Action.submit dispatches helpers copies) engine) := by
  have hprepared : Confined touched engine
      (stateAfter (Action.prepare dispatches copies) engine) :=
    confined_prepare dispatches copies engine
  rcases submit_cases dispatches helpers copies engine with
    h | h | ⟨commands, marked, serial, hcommands, hmarked, h⟩
  · rw [h]
    exact .refl engine
  · rw [h]
    exact hprepared
  · rw [h]
    exact (hprepared.trans (confined_submitted hmarked hmarks (hwrites commands hcommands))).trans
      (.of_memory_eq (memory_settle serial helpers _))

/-! ### Arrays that come and go -/

theorem confined_allocate (element : ElementType) (shape strides : List Nat)
    (customStrides : Bool) (count : Int) :
    Moves (Confined touched)
      (Action.allocate element shape strides customStrides count) := by
  intro engine
  rcases allocate_cases element shape strides customStrides count engine with
    ⟨-, hsame⟩ | ⟨size, -, -, -, hafter⟩
  · rw [hsame]
    exact .refl engine
  · rw [hafter]
    refine confined_addArray (Nat.lt_succ_self _) (fun _ ↦ rfl) (Device.extends_createBuffer _ _ _)
      (fun other hle ↦ Device.bytesOf_push _ hle) ?_
    have hfresh := coherentOn_fresh element shape strides customStrides count size engine.device
    exact ⟨hfresh.pos, hfresh.le, hfresh.size, hfresh.exclusive, nofun⟩

theorem confined_stridesBuffer (strides : List Int) :
    Moves (Confined touched) (Action.stridesBuffer strides) :=
  .bind (.ofExcept _) fun _ ↦ .bind .assertActive fun _ ↦ fun _ ↦ .of_push (fun _ ↦ rfl) rfl

theorem confined_release (buffer : Nat) (engine : Engine) :
    Confined touched engine (engine.release buffer) := by
  obtain ⟨-, h⟩ | ⟨-, _, h, -⟩ := release_cases buffer engine
  · rw [h]
    exact .refl engine
  · rw [h]
    refine Confined.trans (confined_setArray_of_eq fun old hold ↦ ?_) (.of_memory_eq rfl)
    rw [array_of_lookup hold]
    exact ⟨rfl, rfl, rfl, rfl, rfl⟩

theorem confined_collect (arrays generators : List Nat) (engine : Engine) :
    Confined touched engine (engine.collect arrays generators) := by
  refine collect_of (fun _ _ ↦ .of_memory_eq rfl) confined_release (fun keep engine hfitting ↦ ?_)
    arrays generators engine
  refine ⟨fun buffer found hlookup ↦ hfitting buffer found (lookup_of_lookup_filter hlookup),
    Nat.le_refl _, fun buffer _ _ ↦ ⟨fun new hnew ↦ ?_, fun _ ↦ rfl⟩⟩
  have hold := lookup_of_lookup_filter hnew
  refine ⟨new, hold, rfl, rfl, rfl, rfl, id, ?_⟩
  rw [content_of_lookup hnew, content_of_lookup hold]

/-! ### All primitives -/

namespace Primitive

/-- The buffers a primitive may alter. Kernels that write buffers without a host copy may alter
any. -/
def Reaches : Primitive → Nat → Prop
  | submit dispatches _ copies, buffer =>
    buffer ∈ writtenBy dispatches copies ∨ ¬ ∀ dispatch ∈ dispatches, dispatch.ReadsPlain
  | setValue target _ _, buffer => buffer = target
  | setElements target _, buffer => buffer = target
  | loadBlocking target, buffer => buffer = target
  | load target, buffer => buffer = target
  | requestLoad target, buffer => buffer = target
  | startLoad target, buffer => buffer = target
  | finishLoad target, buffer => buffer = target
  | markDeviceDirty target, buffer => buffer = target
  | poke target _ _, buffer => buffer = target
  | _, _ => False

end Primitive

theorem confined_markDeviceDirty (buffer : Nat) :
    Moves (Confined (· = buffer)) (Action.markDeviceDirty buffer) := by
  refine fun engine ↦ confined_setArray fun old hold hfits ↦
    ⟨?_, fun htouched ↦ absurd rfl htouched⟩
  rw [array_of_lookup hold]
  exact ⟨hfits.pos, hfits.le, hfits.size, fun h ↦ (by cases h.1), hfits.staging⟩

theorem confined_poke (buffer start : Nat) (bytes : Bytes) (engine : Engine) :
    Confined (· = buffer) engine { engine with
      device := engine.device.setBytes buffer
        ((engine.device.bytesOf buffer).overwrite start bytes) } := by
  have hdevice : Device.SameOutside (· = buffer) engine.device
      (engine.device.setBytes buffer ((engine.device.bytesOf buffer).overwrite start bytes)) :=
    Device.sameOutside_setBytes (Bytes.size_overwrite _ _ _)
  refine .of_array buffer hdevice.extends (fun _ _ ↦ rfl) (fun other hother _ ↦
    hdevice.bytes other hother) (fun new hnew ↦ ⟨new, hnew, fun hfits ↦
      ⟨hfits.of_extends hdevice.extends, fun htouched ↦ absurd rfl htouched⟩⟩)
    fun htouched ↦ absurd rfl htouched

/-- Every primitive keeps the copies of all arrays fitting, and leaves all buffers alone but those
it reaches. -/
theorem confined_after (primitive : Primitive) (hfaithful : engine.FaithfulCaches) :
    Confined primitive.Reaches engine (engine.after primitive) := by
  cases primitive with
  | allocate element shape strides customStrides count =>
    rw [after_allocate]
    exact confined_allocate _ _ _ _ _ engine
  | stridesBuffer strides =>
    rw [after_stridesBuffer]
    exact confined_stridesBuffer strides engine
  | submit dispatches helpers copies =>
    rw [after_submit]
    refine confined_submit helpers copies (fun commands hcommands command hmem buffer hwrites ↦ ?_)
      fun buffer hmem ↦ .inl hmem
    by_cases hplain : ∀ dispatch ∈ dispatches, dispatch.ReadsPlain
    · exact .inl (mem_writtenBy_of_prepare hfaithful hplain hcommands hmem hwrites)
    · exact .inr hplain
  | setValue buffer value index =>
    exact confined_loadThenUpdate (fun array ↦ array.storesBy_setValue index value) engine
  | setElements buffer values =>
    exact confined_loadThenUpdate (fun array ↦ array.storesBy_setAll values) engine
  | reshape buffer extents => exact confined_reshape buffer extents engine
  | send buffer => exact confined_send buffer engine
  | loadBlocking buffer => exact confined_loadBlocking buffer engine
  | load buffer => exact confined_load buffer engine
  | createLayout modes =>
    rw [after_createLayout]
    exact .of_compiles (compiles_createLayout modes engine)
  | createModule source =>
    rw [after_createModule]
    exact .of_compiles (compiles_createModule source engine)
  | createPipeline source modes constants =>
    rw [after_createPipeline]
    exact .of_compiles (compiles_createPipeline source modes constants engine)
  | release buffer => exact confined_release buffer engine
  | collect arrays generators => exact confined_collect arrays generators engine
  | setGenerator state generator => exact .of_memory_eq rfl
  | addGenerator state generator => exact .of_memory_eq rfl
  | synchronize blocking => exact .of_memory_eq (memory_synchronize blocking engine)
  | retire serial => exact .of_memory_eq (memory_retire serial engine)
  | markLost arguments => exact .of_memory_eq (memory_markLostAction arguments engine)
  | destroy => exact .of_memory_eq (memory_destroy engine)
  | setCompiler compiler => exact .of_memory_eq rfl
  | requestLoad buffer => exact confined_requestLoad buffer engine
  | startLoad buffer =>
    rw [after_startLoad]
    exact confined_startLoad buffer engine
  | finishLoad buffer => exact confined_finishLoad buffer engine
  | markDeviceDirty buffer => exact confined_markDeviceDirty buffer engine
  | poke buffer start bytes => exact confined_poke buffer start bytes engine
  | replaceCalls calls => exact .of_memory_eq rfl

end ComputeArray
