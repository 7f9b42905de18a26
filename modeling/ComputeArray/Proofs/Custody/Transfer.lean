import ComputeArray.Proofs.Custody.Account
import ComputeArray.Proofs.Memory.Submit
import ComputeArray.Proofs.Queue.Backlog

/-!
# Transfers of buffers

What the actions of an engine do to its account of buffers: all but a few leave every buffer in some
place. A submission takes its helpers into the queue, a load takes its staging buffer through its
array, and a release or a collection moves buffers of arrays into the queue.
-/

set_option autoImplicit false

namespace ComputeArray

open Engine

variable {engine : Engine} {loose : List Nat} {buffer : Nat}

/-! ### Arrays and calls -/

theorem preserves_changeArray (buffer : Nat) (change : ArrayState → ArrayState)
    (hsize : ∀ array : ArrayState, array.SameSize (change array))
    (hreleased : ∀ array, (change array).released = array.released)
    (hloading : ∀ array, (change array).loading.readBack? = array.loading.readBack?) :
    Moves Preserves (Action.changeArray buffer change) :=
  fun _ ↦ preserves_setArray (hsize _) (hreleased _) (hloading _)

theorem preserves_record (call : Call) (hcall : ∀ buffer, call ≠ .destroyBuffer buffer) :
    Moves Preserves (Action.changeDevice (Device.record call)) :=
  fun _ ↦ preserves_of_push rfl hcall (.of_buffers_eq rfl) rfl

/-- A change of the device that is no call of an engine. -/
theorem preserves_changeDevice {change : Device → Device}
    (hcalls : ∀ device, (change device).calls = device.calls)
    (hextends : ∀ device : Device, device.Extends (change device))
    (hcount : ∀ device, (change device).buffers.size = device.buffers.size) :
    Moves Preserves (Action.changeDevice change) := by
  intro engine
  refine preserves_of_arrays rfl rfl rfl (hextends _) (hcount _) ?_ ?_ id
  · exact congrArg (fun calls : Array Call ↦ calls.toList.filterMap _) (hcalls engine.device)
  · exact Device.strides_subset_of_append ((congrArg Array.toList (hcalls _)).trans
      (List.append_nil _).symm)

theorem preserves_markDeviceDirty (buffer : Nat) :
    Moves Preserves (Action.markDeviceDirty buffer) :=
  preserves_changeArray buffer _ (fun _ ↦ .of_frame rfl) (fun _ ↦ rfl) fun _ ↦ rfl

theorem preserves_send (buffer : Nat) : Moves Preserves (Action.send buffer) := by
  have hwrite (bytes : Bytes) : Moves Preserves (Action.changeDevice (Device.write buffer bytes)) :=
    fun engine ↦ preserves_of_push
      (congrArg (Array.push · (Call.write buffer bytes)) (Device.calls_setBytes _ _ _)) nofun
      (Device.sameOutside_write engine.device buffer bytes).extends
      (Device.sameOutside_write engine.device buffer bytes).count
  refine .bind (.array buffer) fun array ↦ ?_
  split
  · exact .pure _
  · exact .bind .assertActive fun _ ↦ .bind (hwrite _) fun _ ↦
      preserves_changeArray buffer _ (fun _ ↦ .of_frame rfl) (fun _ ↦ rfl) fun _ ↦ rfl

theorem preserves_updateArray {update : ArrayState → Except Failure ArrayState}
    (h : ∀ array updated, update array = .ok updated → array.SameSize updated ∧
      updated.released = array.released ∧ updated.loading = array.loading) :
    Moves Preserves (Action.updateArray buffer update) := by
  intro engine
  rcases updateArray_cases engine buffer update with
    ⟨_, -, -, hstate⟩ | ⟨updated, hupdated, -, hstate⟩
  · rw [hstate]
    exact .refl [] engine
  · obtain ⟨hsize, hreleased, hloading⟩ := h _ _ hupdated
    rw [hstate]
    exact preserves_setArray hsize hreleased (congrArg Loading.readBack? hloading)

theorem preserves_updateArray_stores {update : ArrayState → Except Failure ArrayState}
    (hstores : ∀ array : ArrayState, array.StoresBy update) :
    Moves Preserves (Action.updateArray buffer update) := by
  refine preserves_updateArray fun array updated hupdated ↦ ?_
  obtain ⟨storage, -, rfl⟩ := (hstores array).eq_ok hupdated
  exact ⟨.of_frame rfl, rfl, rfl⟩

theorem preserves_reshape (buffer : Nat) (extents : List Value) :
    Moves Preserves (Action.reshape buffer extents) := by
  refine preserves_updateArray fun array updated hupdated ↦ ?_
  obtain ⟨-, extents, length, -, hlength, hsame, rfl⟩ := ArrayState.reshape_iff.mp hupdated
  exact ⟨⟨rfl, rfl, rfl, fun _ ↦ hlength.trans hsame.symm⟩, rfl, rfl⟩

/-! ### New buffers -/

namespace Engine

theorem count_range'_succ (n other : Nat) :
    (List.range' 1 (n + 1)).count other = (List.range' 1 n).count other + [n + 1].count other := by
  rw [List.range'_concat, List.count_append, Nat.one_mul, Nat.add_comm 1 n]

/-- A new buffer is loose. -/
theorem exchanges_of_created {device : Device} {call : Call} (engine : Engine)
    (hcalls : device.calls = engine.device.calls.push call)
    (hcall : ∀ buffer, call ≠ .destroyBuffer buffer) (hextends : engine.device.Extends device)
    (hcount : device.buffers.size = engine.device.buffers.size + 1) :
    Exchanges [] [engine.nextBuffer] engine { engine with device } := by
  refine .of_places rfl rfl hextends (Device.strides_subset_of_push hcalls) id fun other ↦ ?_
  have hplaces : { engine with device }.places other = engine.places other := by
    have hdestroyed := Device.destroyed_of_push hcalls hcall
    unfold places
    rw [hdestroyed]
    rfl
  rw [hplaces, hcount, count_range'_succ, nextBuffer, List.count_nil]
  omega

/-- A new array owns its buffer. -/
theorem preserves_allocated {size : Nat} {array : ArrayState} (hsized : array.Sized size)
    (hreleased : array.released = false) (hloading : array.loading = .idle) (engine : Engine) :
    Preserves engine (engine.allocated size array) := by
  have hkeys : (engine.allocated size array).arrays.map Prod.fst =
      engine.arrays.map Prod.fst ++ [engine.nextBuffer] := List.map_append
  have hcount : (engine.allocated size array).device.buffers.size =
      engine.device.buffers.size + 1 := Array.size_push _
  have hcalls : (engine.allocated size array).device.calls = engine.device.calls.push
      (.createBuffer engine.nextBuffer size Device.storageUsage) := rfl
  have hplaces (other : Nat) : (engine.allocated size array).places other =
      engine.places other + [engine.nextBuffer].count other := by
    have harrays : (engine.allocated size array).arrays =
        engine.arrays ++ [(engine.nextBuffer, array)] := rfl
    have hqueued : (engine.allocated size array).queued = engine.queued := rfl
    have hown : array.placesAt engine.nextBuffer other = [engine.nextBuffer].count other := by
      rw [ArrayState.placesAt, hreleased, hloading]
      rfl
    rw [places_eq, places_eq, harrays, hqueued, Device.destroyed_of_push hcalls (by simp),
      List.map_append, List.sum_append, List.map_singleton, List.sum_singleton, hown]
    omega
  refine ⟨fun loose h ↦ ?_, ?_, ?_, Device.strides_subset_of_push hcalls⟩
  · refine ⟨?_, ?_, ?_, ?_, fun hactive ↦ accounts_iff.mpr fun other ↦ ?_⟩
    · rw [hkeys, List.nodup_append]
      refine ⟨h.keys, List.pairwise_singleton _ _, fun key hmem new hnew heq ↦ ?_⟩
      obtain rfl := List.mem_singleton.mp hnew
      exact absurd (h.numbered key hmem) (heq ▸ Nat.not_succ_le_self _)
    · intro key hmem
      rw [hkeys, List.mem_append, List.mem_singleton] at hmem
      rw [hcount]
      rcases hmem with hmem | rfl
      · exact Nat.le_succ_of_le (h.numbered key hmem)
      · exact Nat.le_refl _
    · intro entry hmem
      rcases List.mem_append.mp hmem with hold | hnew
      · have hle := h.numbered entry.1 (List.mem_map_of_mem hold)
        have hsame :=
          (Device.extends_createBuffer size Device.storageUsage engine.device).size _ hle
        exact hsame.symm ▸ h.sized entry hold
      · obtain rfl := List.mem_singleton.mp hnew
        have hnewBytes : (engine.allocated size array).device.sizeOf engine.nextBuffer = size :=
          congrArg Bytes.size (Device.bytesOf_push_new _ _)
        exact hnewBytes.symm ▸ hsized
    · intro entry hmem samples hkept
      rw [hkeys]
      exact List.mem_append_left _ (h.kept entry hmem samples hkept)
    · have hbefore := accounts_iff.mp (h.accounts hactive) other
      rw [hcount, count_range'_succ, hbefore, hplaces, nextBuffer]
      omega
  · rw [hkeys]
    exact List.subset_append_left _ _
  · rw [hcount]
    exact Nat.le_succ _

end Engine

/-- Without strides, a new array has as many elements as its shape. -/
theorem preserves_allocate (element : ElementType) (shape strides : List Nat) (customStrides : Bool)
    (count : Int) (hcount : customStrides = false →
      Layout.contiguousCount (shape.map Int.ofNat) = .ok count) :
    Moves Preserves (Action.allocate element shape strides customStrides count) := by
  intro engine
  rcases allocate_cases element shape strides customStrides count engine with
    ⟨-, hsame⟩ | ⟨size, hsize, -, -, hafter⟩
  · rw [hsame]
    exact .refl [] engine
  · have hsized : (ArrayState.fresh element shape strides customStrides count size).Sized size :=
      ⟨hsize, hcount⟩
    rw [hafter]
    exact preserves_allocated hsized rfl rfl engine

/-! ### The queue -/

namespace Engine

/-- A retirement moves buffers from the queue to the destroyed ones. -/
theorem preserves_retire (serial : Int) (engine : Engine) :
    Preserves engine (engine.retire serial) := by
  have hdevice := device_retire serial engine
  rw [foldl_destroyBuffer] at hdevice
  have hcount : (engine.retire serial).device.buffers.size = engine.device.buffers.size := by
    rw [hdevice]
  have hcalls : (engine.retire serial).device.calls.toList =
      engine.device.calls.toList ++ (engine.dueBuffers serial).map .destroyBuffer := by
    rw [hdevice]
    simp
  have hdestroyed : (engine.retire serial).device.destroyed =
      engine.device.destroyed ++ engine.dueBuffers serial := by
    unfold Device.destroyed
    rw [hcalls, List.filterMap_append, List.filterMap_map]
    exact congrArg _ (List.filterMap_some)
  have hextends : engine.device.Extends (engine.retire serial).device :=
    .of_buffers_eq (by rw [hdevice])
  refine .of_places rfl rfl hextends (Device.strides_subset_of_append hcalls) id fun other ↦ ?_
  have hqueue : engine.queued =
      engine.dueBuffers serial ++ (engine.retire serial).queued := by
    unfold queued dueBuffers
    rw [← List.map_append]
    exact congrArg (List.map Prod.snd) List.takeWhile_append_dropWhile.symm
  have harrays : (engine.retire serial).owned = engine.owned ∧
      (engine.retire serial).staging = engine.staging := ⟨rfl, rfl⟩
  rw [hcount, places, places, hdestroyed, hqueue, harrays.1, harrays.2, List.count_append,
    List.count_append]
  omega

/-- Spare buffers may be put into the queue. -/
theorem exchanges_queue (serial : Nat) (helpers : List Nat) (engine : Engine) :
    Exchanges helpers [] engine { engine with
      pending := engine.pending ++ helpers.map fun buffer ↦ (serial, buffer) } := by
  refine .of_places rfl rfl (.of_buffers_eq rfl) (List.Subset.refl _) id fun other ↦ ?_
  set after : Engine := { engine with
    pending := engine.pending ++ helpers.map fun buffer ↦ (serial, buffer) }
  have hqueue : after.queued = engine.queued ++ helpers := by
    change List.map Prod.snd (engine.pending ++ _) = _
    rw [List.map_append, List.map_map]
    exact congrArg _ (List.map_id' _)
  have hrest : after.owned = engine.owned ∧ after.device = engine.device ∧
      after.staging = engine.staging := ⟨rfl, rfl, rfl⟩
  rw [places, places, hqueue, hrest.1, hrest.2.1, hrest.2.2, List.count_append, List.count_nil]
  omega

/-- A loose buffer may be destroyed. -/
theorem exchanges_destroyBuffer (buffer : Nat) (engine : Engine) :
    Exchanges [buffer] [] engine
      { engine with device := engine.device.record (.destroyBuffer buffer) } := by
  have hcalls : (engine.device.record (.destroyBuffer buffer)).calls =
      engine.device.calls.push (.destroyBuffer buffer) := rfl
  refine .of_places rfl rfl (.of_buffers_eq rfl) (Device.strides_subset_of_push hcalls) id
    fun other ↦ ?_
  set after : Engine := { engine with device := engine.device.record (.destroyBuffer buffer) }
  have hdestroyed : after.device.destroyed = engine.device.destroyed ++ [buffer] := by
    unfold Device.destroyed
    exact (congrArg (fun calls : List Call ↦ calls.filterMap _) Array.toList_push).trans
      List.filterMap_append
  have hrest : after.owned = engine.owned ∧ after.queued = engine.queued ∧
      after.staging = engine.staging := ⟨rfl, rfl, rfl⟩
  have hcount : after.device.buffers.size = engine.device.buffers.size := rfl
  rw [hcount, places, places, hdestroyed, hrest.1, hrest.2.1, hrest.2.2, List.count_append,
    List.count_nil]
  omega

end Engine

/-- What a submission does when it is made: helpers join the queue, which may be drained. -/
theorem exchanges_settle (serial : Nat) (helpers : List Nat) (engine : Engine) :
    Exchanges helpers [] engine (stateAfter (Action.settle serial helpers) engine) := by
  have hrest : Moves Preserves (do
      if Engine.pendingLimit < (← get).pending.length then
        Action.changeDevice (Device.record (.awaitQueue true))
        modify (Engine.retire serial) : Action Unit) := by
    refine .bind .get fun found ↦ ?_
    split
    · exact .bind (preserves_record _ nofun) fun _ ↦ .update (preserves_retire _)
    · exact .pure _
  exact (exchanges_queue serial helpers engine).trans (hrest _)

theorem preserves_synchronize (blocking : Bool) : Moves Preserves (Action.synchronize blocking) :=
  .bind .assertActive fun _ ↦ .bind .get fun _ ↦ .bind (preserves_record _ nofun) fun _ ↦
    .update (preserves_retire _)

/-! ### Submissions -/

theorem preserves_submitCommands (commands : List Command) :
    Moves Preserves (Action.submitCommands commands) := by
  intro engine
  have hcalls := Device.calls_submit commands engine.device
  have hsubmit := Device.sameOutside_submit commands engine.device
  refine preserves_of_arrays rfl rfl rfl hsubmit.extends hsubmit.count ?_ ?_ id
  · exact Device.destroyed_of_push hcalls nofun
  · exact Device.strides_subset_of_push hcalls

theorem preserves_encode (dispatch : Dispatch) : Moves Preserves (Action.encode dispatch) :=
  (compiles_encode dispatch).mono fun _ _ ↦ preserves_of_compiles

theorem preserves_createEncoder : Moves Preserves (Action.changeDevice Device.createEncoder) :=
  compiles_createEncoder.mono fun _ _ ↦ preserves_of_compiles

theorem preserves_prepare (dispatches : List Dispatch) (copies : List (Nat × Nat)) :
    Moves Preserves (Action.prepare dispatches copies) :=
  .prepare preserves_send preserves_createEncoder preserves_encode _ _

theorem preserves_handOver (dispatches : List Dispatch) (copies : List (Nat × Nat))
    (commands : List Command) : Moves Preserves (Action.handOver dispatches copies commands) :=
  .bind (.forM _ fun buffer _ ↦ preserves_markDeviceDirty buffer) fun _ ↦
    .bind (.forM _ fun buffer _ ↦ preserves_markDeviceDirty buffer) fun _ ↦
      preserves_submitCommands commands

theorem preserves_submit (dispatches : List Dispatch) (copies : List (Nat × Nat)) :
    Moves Preserves (Action.submit dispatches [] copies) :=
  .bind .assertActive fun _ ↦ .bind (preserves_prepare dispatches copies) fun commands ↦
    .bind (preserves_handOver dispatches copies commands) fun serial ↦
      .bind (exchanges_settle serial []) fun _ ↦ .pure serial

/-! ### Read-backs -/

/-- Once it has been copied to, the staging buffer of a read-back is loose. -/
theorem exchanges_staged (buffer : Nat) (engine : Engine) :
    Exchanges [] [engine.nextBuffer] engine (engine.staged buffer) := by
  set size := engine.device.sizeOf buffer
  have hcreated : Exchanges [] [engine.nextBuffer] engine
      { engine with device := (engine.device.createBuffer size Device.stagingUsage).2 } :=
    exchanges_of_created engine rfl nofun (Device.extends_createBuffer _ _ _) (Array.size_push _)
  exact hcreated.trans (((preserves_createEncoder _).exchanges _).trans
    ((preserves_submitCommands [.copy buffer engine.nextBuffer size] _).exchanges _))

theorem preserves_mapStaging (readBack : ReadBack) (blocking : Bool) :
    Moves Preserves (Action.mapStaging readBack blocking) :=
  fun _ ↦ preserves_of_push rfl nofun (.of_buffers_eq rfl) rfl

/-- The end of a read-back destroys its staging buffer. -/
theorem exchanges_finishReadBack (buffer : Nat) (readBack : ReadBack) (engine : Engine) :
    Exchanges [readBack.staging] [] engine
      (stateAfter (Action.finishReadBack buffer readBack) engine) := by
  set bytes := engine.device.bytesOf readBack.staging
  have hstored := preserves_changeArray buffer (fun array ↦ { array with storage := bytes })
    (fun _ ↦ .of_frame rfl) (fun _ ↦ rfl) fun _ ↦ rfl
  have hcleared := preserves_changeArray buffer (fun array ↦
      if array.version = readBack.version then { array with deviceDirty := false } else array)
    (fun array ↦ .of_frame (by split <;> rfl)) (fun array ↦ by split <;> rfl)
    fun array ↦ by split <;> rfl
  have hunmapped :
      Moves Preserves (Action.changeDevice (Device.record (.unmap readBack.staging))) :=
    preserves_record _ nofun
  exact ((hstored engine).exchanges _).trans (((hunmapped _).exchanges _).trans
    ((exchanges_destroyBuffer readBack.staging _).trans
      ((preserves_retire readBack.serial _).trans (hcleared _))))

theorem preserves_loadBlocking (buffer : Nat) : Moves Preserves (Action.loadBlocking buffer) := by
  refine .bind (.array buffer) fun array ↦ ?_
  split
  · exact .pure _
  · intro engine
    rcases copyToStaging_cases engine buffer with ⟨-, ⟨failure, hfailure⟩, hstate⟩ |
      ⟨-, houtcome, hstate⟩
    · rw [stateAfter_bind, hfailure, hstate]
      exact .refl [] engine
    · rw [stateAfter_bind_of_ok houtcome, hstate]
      set readBack : ReadBack :=
        ⟨engine.nextBuffer, engine.serial + 1, (engine.array buffer).version⟩
      have hmapped := preserves_mapStaging readBack true (engine.staged buffer)
      have hfinished := exchanges_finishReadBack buffer readBack
        (stateAfter (Action.mapStaging readBack true) (engine.staged buffer))
      exact (exchanges_staged buffer engine).trans ((hmapped.exchanges _).trans hfinished)

/-! ### Asynchronous loads -/

namespace Engine

variable {array : ArrayState} {readBack : ReadBack}

/-- A load under way holds its staging buffer. -/
theorem exchanges_beginCopy (hlookup : engine.arrays.lookup buffer = some array)
    (hloading : array.loading.readBack? = none) (readBack : ReadBack) :
    Exchanges [readBack.staging] [] engine
      (engine.setArray buffer { array with loading := .copying readBack }) := by
  refine exchanges_setArray hlookup (.of_frame rfl) fun other ↦ ?_
  rw [ArrayState.placesAt, ArrayState.placesAt, hloading]
  rfl

/-- At its end the staging buffer is loose again. -/
theorem exchanges_endCopy (hlookup : engine.arrays.lookup buffer = some array)
    (hloading : array.loading = .copying readBack) :
    Exchanges [] [readBack.staging] engine
      (engine.setArray buffer { array with loading := .idle }) := by
  refine exchanges_setArray hlookup (.of_frame rfl) fun other ↦ ?_
  rw [ArrayState.placesAt, ArrayState.placesAt, hloading]
  rfl

end Engine

theorem preserves_requestLoad (buffer : Nat) : Moves Preserves (Action.requestLoad buffer) := by
  intro engine
  rcases (requestLoad_cases buffer engine).2 with ⟨-, hsame⟩ | ⟨-, hidle, hafter⟩
  · rw [hsame]
    exact .refl [] engine
  · rw [hafter]
    exact preserves_setArray (.of_frame rfl) rfl (by rw [hidle]; rfl)

theorem preserves_startLoad (buffer : Nat) : Moves Preserves (Action.startLoad buffer) := by
  intro engine
  unfold Action.startLoad
  simp only [stateAfter_bind, outcomeOf_array, stateAfter_array]
  split
  · next hloading =>
    have hlookup : engine.arrays.lookup buffer = some (engine.array buffer) :=
      exists_lookup_of_loading (hloading ▸ nofun)
    set idle := engine.setArray buffer { engine.array buffer with loading := .idle }
    have hidle : Preserves engine idle :=
      preserves_setArray (.of_frame rfl) rfl (by rw [hloading]; rfl)
    have hidleLookup : idle.arrays.lookup buffer =
        some { engine.array buffer with loading := .idle } := lookup_setArray_self _ hlookup
    change Preserves engine (stateAfter (Action.copyToStaging buffer >>= _) idle)
    rcases copyToStaging_cases idle buffer with ⟨-, ⟨failure, hfailure⟩, hstate⟩ |
      ⟨-, houtcome, hstate⟩
    · rw [stateAfter_bind, hfailure, hstate]
      exact hidle
    · rw [stateAfter_bind_of_ok houtcome, hstate]
      set readBack : ReadBack := ⟨idle.nextBuffer, idle.serial + 1, (idle.array buffer).version⟩
      set mapped := stateAfter (Action.mapStaging readBack false) (idle.staged buffer)
      have hmapped : Preserves (idle.staged buffer) mapped := preserves_mapStaging readBack false _
      have hmappedLookup : mapped.arrays.lookup buffer =
          some { engine.array buffer with loading := .idle } := hidleLookup
      have hcopying := exchanges_beginCopy hmappedLookup rfl readBack
      have harray : mapped.array buffer = { engine.array buffer with loading := .idle } :=
        array_of_lookup hmappedLookup
      refine hidle.trans ((exchanges_staged buffer idle).trans ((hmapped.exchanges _).trans ?_))
      change Exchanges [readBack.staging] [] mapped (mapped.setArray buffer
        { mapped.array buffer with loading := .copying readBack })
      rw [harray]
      exact hcopying
  · exact .refl [] engine

theorem preserves_finishLoad (buffer : Nat) : Moves Preserves (Action.finishLoad buffer) := by
  intro engine
  unfold Action.finishLoad
  simp only [stateAfter_bind, outcomeOf_array, stateAfter_array]
  split
  · next readBack hloading =>
    have hlookup : engine.arrays.lookup buffer = some (engine.array buffer) :=
      exists_lookup_of_loading (hloading ▸ nofun)
    exact (exchanges_endCopy hlookup hloading).trans (exchanges_finishReadBack buffer readBack _)
  · exact .refl [] engine

theorem preserves_load (buffer : Nat) : Moves Preserves (Action.load buffer) :=
  .bind (preserves_requestLoad buffer) fun _ ↦ .bind (preserves_startLoad buffer) fun _ ↦
    preserves_finishLoad buffer

theorem preserves_loadThenUpdate {update : ArrayState → Except Failure ArrayState}
    (hstores : ∀ array : ArrayState, array.StoresBy update) :
    Moves Preserves (loadThenUpdate buffer update) := by
  refine .bind (.array buffer) fun array ↦ ?_
  split
  · exact .bind (preserves_loadBlocking buffer) fun _ ↦ preserves_updateArray_stores hstores
  · exact preserves_updateArray_stores hstores

theorem preserves_setValue (buffer : Nat) (value : Value) (index : List Value) :
    Moves Preserves (Action.setValue buffer value index) :=
  preserves_loadThenUpdate fun array ↦ array.storesBy_setValue index value

theorem preserves_setElements (buffer : Nat) (values : List Nat) :
    Moves Preserves (Action.setElements buffer values) :=
  preserves_loadThenUpdate fun array ↦ array.storesBy_setAll values

/-! ### Releases -/

namespace Engine

/-- A release moves the buffer of an array into the queue, the first time only. -/
theorem preserves_release (hfound : buffer ∈ engine.arrays.map Prod.fst) :
    Preserves engine (engine.release buffer) := by
  obtain ⟨array, hlookup⟩ := exists_lookup_of_mem hfound
  have hcases := release_cases buffer engine
  rw [array_of_lookup hlookup] at hcases
  obtain ⟨-, h⟩ | ⟨hreleased, pending, h, hpending⟩ := hcases
  · rw [h]
    exact .refl [] engine
  · rw [h]
    set marked := engine.setArray buffer { array with released := true }
    have hmarked : Exchanges [] [buffer] engine marked := by
      refine exchanges_setArray hlookup (.of_frame rfl) fun other ↦ ?_
      rw [ArrayState.placesAt, ArrayState.placesAt, hreleased, if_pos rfl,
        if_neg Bool.false_ne_true]
      simp only [List.count_nil]
      omega
    obtain ⟨hlost, -⟩ | ⟨-, rfl⟩ := hpending
    · exact hmarked.trans (exchanges_of_lost hlost rfl rfl rfl)
    · exact hmarked.trans (exchanges_queue marked.serial [buffer] marked)

theorem preserves_foldl_release {buffers : List Nat}
    (hfound : ∀ buffer ∈ buffers, buffer ∈ engine.arrays.map Prod.fst) :
    Preserves engine (buffers.foldl (fun engine buffer ↦ engine.release buffer) engine) := by
  induction buffers generalizing engine with
  | nil => exact .refl [] engine
  | cons buffer rest ih =>
    have hfirst := preserves_release (hfound buffer List.mem_cons_self)
    exact hfirst.trans (ih fun other hmem ↦
      hfirst.keys (hfound other (List.mem_cons_of_mem buffer hmem)))

/-- What a release leaves of an array: it is released for good if it has been before or if it is the
one, and loads go on. -/
theorem exists_of_mem_release {entry : Nat × ArrayState}
    (hkeys : (engine.arrays.map Prod.fst).Nodup)
    (hmem : entry ∈ (engine.release buffer).arrays) :
    ∃ old, (entry.1, old) ∈ engine.arrays ∧ entry.2.loading = old.loading ∧
      (old.released = true ∨ entry.1 = buffer → entry.2.released = true) := by
  obtain ⟨key, array⟩ := entry
  obtain ⟨hreleased, h⟩ | ⟨-, _, h, -⟩ := release_cases buffer engine
  · rw [h] at hmem
    refine ⟨array, hmem, rfl, ?_⟩
    rintro (hold | rfl)
    · exact hold
    · rwa [array_of_lookup (lookup_of_mem hkeys hmem)] at hreleased
  · rw [h] at hmem
    obtain ⟨⟨found, old⟩, hold, heq⟩ := List.mem_map.mp hmem
    obtain ⟨rfl, rfl⟩ := Prod.mk.inj heq
    refine ⟨old, hold, ?_, ?_⟩
    · dsimp only
      split
      · next hkey => rw [← hkey, array_of_lookup (lookup_of_mem hkeys hold)]
      · rfl
    · dsimp only
      split
      · exact fun _ ↦ rfl
      · next hkey => exact fun h ↦ h.resolve_right hkey

theorem exists_of_mem_foldl_release {buffers : List Nat} {entry : Nat × ArrayState}
    (hkeys : (engine.arrays.map Prod.fst).Nodup)
    (hmem : entry ∈ (buffers.foldl (fun engine buffer ↦ engine.release buffer) engine).arrays) :
    ∃ old, (entry.1, old) ∈ engine.arrays ∧ entry.2.loading = old.loading ∧
      (old.released = true ∨ entry.1 ∈ buffers → entry.2.released = true) := by
  induction buffers generalizing engine with
  | nil => exact ⟨entry.2, hmem, rfl, fun h ↦ h.resolve_right List.not_mem_nil⟩
  | cons buffer rest ih =>
    have hkeys' : ((engine.release buffer).arrays.map Prod.fst).Nodup := by rwa [keys_release]
    obtain ⟨middle, hmiddle, hloading, hreleased⟩ := ih hkeys' hmem
    obtain ⟨old, hold, hloading', hreleased'⟩ := exists_of_mem_release hkeys hmiddle
    refine ⟨old, hold, hloading.trans hloading', fun h ↦ hreleased ?_⟩
    rcases h with h | h
    · exact .inl (hreleased' (.inl h))
    · exact (List.mem_cons.mp h).imp_left fun heq ↦ hreleased' (.inr heq)

theorem generators_foldl_release (buffers : List Nat) (engine : Engine) :
    (buffers.foldl (fun engine buffer ↦ engine.release buffer) engine).generators =
      engine.generators := by
  refine foldl_release_eq (fun buffer engine ↦ ?_) buffers engine
  obtain ⟨-, h⟩ | ⟨-, _, h, -⟩ := release_cases buffer engine
  · rw [h]
  · rw [h]
    rfl

/-- Arrays that are released and not being loaded may be forgotten, unless a generator keeps
them. -/
theorem Custody.filter (h : engine.Custody loose) (keep : Nat → Bool)
    (hforgotten : ∀ entry ∈ engine.arrays, keep entry.1 = false →
      entry.2.released = true ∧ entry.2.loading.readBack? = none)
    (hkept : ∀ entry ∈ engine.generators, ∀ samples, entry.2.kept = some samples →
      keep samples.2 = true) :
    Custody loose { engine with arrays := engine.arrays.filter fun entry ↦ keep entry.1 } := by
  set after : Engine := { engine with arrays := engine.arrays.filter fun entry ↦ keep entry.1 }
  have hkeys : (after.arrays.map Prod.fst).Sublist (engine.arrays.map Prod.fst) :=
    List.filter_sublist.map _
  have howned : after.owned = engine.owned := by
    unfold owned
    rw [List.filter_filter]
    refine congrArg _ (List.filter_congr fun entry hmem ↦ ?_)
    cases hkeep : keep entry.1 with
    | true => exact Bool.and_true _
    | false => rw [(hforgotten entry hmem hkeep).1]; rfl
  have hstaging : after.staging = engine.staging := by
    unfold staging
    rw [List.filterMap_filter]
    refine List.filterMap_congr fun entry hmem ↦ ?_
    cases hkeep : keep entry.1 with
    | true => rfl
    | false => rw [(hforgotten entry hmem hkeep).2]; rfl
  refine ⟨h.keys.sublist hkeys, fun key hmem ↦ h.numbered key (hkeys.subset hmem),
    fun entry hmem ↦ h.sized entry (List.mem_filter.mp hmem).1, ?_, fun hactive ↦ ?_⟩
  · intro entry hmem samples hsamples
    obtain ⟨found, hfound, hfst⟩ := List.mem_map.mp (h.kept entry hmem samples hsamples)
    refine List.mem_map.mpr ⟨found, List.mem_filter.mpr ⟨hfound, ?_⟩, hfst⟩
    rw [hfst]
    exact hkept entry hmem samples hsamples
  · have haccounts := h.accounts hactive
    unfold Accounts at haccounts ⊢
    rw [howned, hstaging]
    exact haccounts

/-- A collection releases what it forgets. -/
theorem Custody.collect (h : engine.Custody loose) (arrays generators : List Nat) :
    (engine.collect arrays generators).Custody loose := by
  set pruned := engine.keepGenerators generators
  have hpruned : pruned.Custody loose :=
    ⟨h.keys, h.numbered, h.sized, fun entry hmem ↦ h.kept entry (List.mem_filter.mp hmem).1,
      h.accounts⟩
  set kept := arrays ++ (pruned.generators.flatMap fun entry ↦ keptBy entry.1 entry.2) ++
    pruned.outstanding with hkept
  set lapsed := (pruned.arrays.map Prod.fst).filter fun buffer ↦ !kept.contains buffer
  set released := lapsed.foldl (fun engine buffer ↦ engine.release buffer) pruned
  have hreleased : released.Custody loose :=
    (preserves_foldl_release fun buffer hmem ↦ (List.mem_filter.mp hmem).1).custody loose hpruned
  refine hreleased.filter (fun buffer ↦ kept.contains buffer) (fun entry hmem hforgotten ↦ ?_)
    fun entry hmem samples hsamples ↦ ?_
  · obtain ⟨old, hold, hloading, hentry⟩ := exists_of_mem_foldl_release hpruned.keys hmem
    have hkey : entry.1 ∈ lapsed :=
      List.mem_filter.mpr ⟨List.mem_map.mpr ⟨_, hold, rfl⟩, by rw [hforgotten]; rfl⟩
    refine ⟨hentry (.inr hkey), ?_⟩
    -- What is being loaded is outstanding, and so it is kept.
    cases hreadBack : old.loading with
    | copying readBack =>
      have hunderWay : entry.1 ∈ kept := by
        refine List.mem_append_right _ (List.mem_map.mpr ⟨(entry.1, old), ?_, rfl⟩)
        exact List.mem_filter.mpr ⟨hold, by dsimp only; rw [hreadBack]; rfl⟩
      rw [List.contains_iff_mem.mpr hunderWay] at hforgotten
      cases hforgotten
    | _ => rw [hloading, hreadBack]; rfl
  · have hgenerators : released.generators = pruned.generators := generators_foldl_release _ _
    refine List.contains_iff_mem.mpr (List.mem_append_left _ (List.mem_append_right _
      (List.mem_flatMap.mpr ⟨entry, hgenerators ▸ hmem, ?_⟩)))
    rw [keptBy, hsamples]
    exact List.mem_cons_of_mem _ List.mem_cons_self

end Engine

/-! ### Losses -/

namespace Engine

theorem preserves_markLost (wanted : Bool) (reason message : Value) (engine : Engine) :
    Preserves engine (engine.markLost wanted reason message) := by
  rcases markLost_cases wanted reason message engine with ⟨-, hsame⟩ | ⟨-, log, hmarked⟩
  · rw [hsame]
    exact .refl [] engine
  · rw [hmarked]
    exact exchanges_of_lost nofun rfl rfl rfl

end Engine

theorem preserves_markLostAction (arguments : List Value) :
    Moves Preserves (Action.markLost arguments) :=
  .markLost preserves_markLost arguments

theorem preserves_destroy : Moves Preserves Action.destroy :=
  .destroy preserves_markLost fun _ ↦ preserves_of_push rfl (by simp) (.of_buffers_eq rfl) rfl

/-! ### Generators -/

namespace Engine

variable {generators : List (Nat × Generator)}

/-- Generators may keep other samples, as long as these are arrays. -/
theorem preserves_setGenerators (hkept : ∀ entry ∈ generators, entry ∈ engine.generators ∨
    ∀ samples, entry.2.kept = some samples → samples.2 ∈ engine.arrays.map Prod.fst) :
    Preserves engine { engine with generators } where
  custody loose h := by
    refine ⟨h.keys, h.numbered, h.sized, fun entry hmem samples hsamples ↦ ?_, h.accounts⟩
    rcases hkept entry hmem with hold | hnew
    · exact h.kept entry hold samples hsamples
    · exact hnew samples hsamples
  keys := List.Subset.refl _
  count := Nat.le_refl _
  strides := List.Subset.refl _

theorem preserves_setGenerator {state : Nat} {generator : Generator}
    (hkept : ∀ samples, generator.kept = some samples → samples.2 ∈ engine.arrays.map Prod.fst) :
    Preserves engine (engine.setGenerator state generator) := by
  refine preserves_setGenerators fun entry hmem ↦ ?_
  obtain ⟨old, hold, rfl⟩ := List.mem_map.mp hmem
  dsimp only
  split
  · exact .inr hkept
  · exact .inl hold

theorem preserves_addGenerator {state : Nat} {generator : Generator} (h : generator.kept = none) :
    Preserves engine (engine.addGenerator state generator) := by
  refine preserves_setGenerators fun entry hmem ↦ ?_
  rcases List.mem_append.mp hmem with hold | hnew
  · exact .inl hold
  · obtain rfl := List.mem_singleton.mp hnew
    exact .inr (by simp [h])

end Engine

end ComputeArray
