import ComputeArray.Engine.Access
import ComputeArray.Proofs.Memory.Coherence

/-!
# Loading

A load copies the device buffer of an array into a new staging buffer and from there into host
memory. With nothing in between, blocking and asynchronous loads leave the same memory behind: that
of `Engine.loaded`.
-/

set_option autoImplicit false

namespace ComputeArray

namespace Engine

variable {touched : Nat → Prop} {engine : Engine} {buffer : Nat} {array : ArrayState}

theorem memory_retire (serial : Int) (engine : Engine) :
    (engine.retire serial).memory = engine.memory := by
  have hfoldl (due : List (Nat × Nat)) (device : Device) :
      (due.foldl (fun device entry ↦ device.record (.destroyBuffer entry.2)) device).buffers =
        device.buffers := by
    induction due generalizing device with
    | nil => rfl
    | cons entry rest ih =>
      rw [List.foldl_cons, ih]
      rfl
  exact memory_eq_iff.mpr ⟨fun _ ↦ rfl, hfoldl _ _⟩

/-- The engine after a device buffer has been copied into a new staging buffer. -/
def staged (engine : Engine) (buffer : Nat) : Engine :=
  { engine with
    device := (engine.device.createBuffer (engine.device.sizeOf buffer)
      Device.stagingUsage).2.createEncoder.submit
        [.copy buffer (engine.device.buffers.size + 1) (engine.device.sizeOf buffer)]
    serial := engine.serial + 1 }

theorem copyToStaging_cases (engine : Engine) (buffer : Nat) :
    (engine.lost ≠ none ∧
      (∃ failure, outcomeOf (Action.copyToStaging buffer) engine = .error failure) ∧
      stateAfter (Action.copyToStaging buffer) engine = engine) ∨
    (engine.lost = none ∧ outcomeOf (Action.copyToStaging buffer) engine =
        .ok ⟨engine.device.buffers.size + 1, engine.serial + 1, (engine.array buffer).version⟩ ∧
      stateAfter (Action.copyToStaging buffer) engine = engine.staged buffer) := by
  simp only [Action.copyToStaging, outcomeOf_bind, stateAfter_bind, stateAfter_assertActive]
  cases hactive : outcomeOf Action.assertActive engine with
  | error failure =>
    refine .inl ⟨fun hlost ↦ ?_, ⟨failure, rfl⟩, rfl⟩
    rw [outcomeOf_assertActive hlost] at hactive
    cases hactive
  | ok checked => exact .inr ⟨lost_of_outcomeOf_assertActive hactive, rfl, rfl⟩

section Staged

variable (engine buffer)

theorem arrays_staged : (engine.staged buffer).arrays = engine.arrays := rfl

theorem count_staged :
    (engine.staged buffer).device.buffers.size = engine.device.buffers.size + 1 := by
  have h := Device.sameOutside_submit
    [.copy buffer (engine.device.buffers.size + 1) (engine.device.sizeOf buffer)]
    (engine.device.createBuffer (engine.device.sizeOf buffer) Device.stagingUsage).2.createEncoder
  rw [staged, h.count]
  simp [Device.createBuffer, Device.createEncoder, Device.record]

theorem bytesOf_staged {other : Nat} (h : other ≤ engine.device.buffers.size) :
    (engine.staged buffer).device.bytesOf other = engine.device.bytesOf other := by
  have hsubmit := Device.sameOutside_submit
    [.copy buffer (engine.device.buffers.size + 1) (engine.device.sizeOf buffer)]
    (engine.device.createBuffer (engine.device.sizeOf buffer) Device.stagingUsage).2.createEncoder
  rw [staged, hsubmit.bytes other ?_]
  · exact Device.bytesOf_push _ h
  · rintro ⟨command, hmem, hwrites⟩
    rw [List.mem_singleton.mp hmem] at hwrites
    change other = engine.device.buffers.size + 1 at hwrites
    omega

/-- The staging buffer holds what the copied buffer does. -/
theorem same_staging (hle : buffer ≤ engine.device.buffers.size) :
    ((engine.staged buffer).device.bytesOf (engine.device.buffers.size + 1)).Same
      (engine.device.bytesOf buffer) := by
  set size := engine.device.sizeOf buffer with hsize
  set device := (engine.device.createBuffer size Device.stagingUsage).2.createEncoder with hdevice
  have hsource : device.bytesOf buffer = engine.device.bytesOf buffer := Device.bytesOf_push _ hle
  have htarget : device.bytesOf (engine.device.buffers.size + 1) = .zeros size :=
    Device.bytesOf_push_new _ _
  have hcount : device.buffers.size = engine.device.buffers.size + 1 := by
    simp [hdevice, Device.createBuffer, Device.createEncoder, Device.record]
  have hstaging : (engine.staged buffer).device.bytesOf (engine.device.buffers.size + 1) =
      (engine.device.bytesOf buffer).take size := by
    change (device.setBytes (engine.device.buffers.size + 1)
      ((device.bytesOf (engine.device.buffers.size + 1)).overwrite 0
        ((device.bytesOf buffer).take size))).bytesOf (engine.device.buffers.size + 1) = _
    rw [Device.bytesOf_setBytes_self _ (by omega) (by omega), htarget, hsource]
    refine Bytes.overwrite_of_size_eq ?_
    rw [hsize]
    exact Nat.min_self _
  rw [hstaging]
  exact Bytes.same_take _

end Staged

/-- The engine after an array has been loaded, as far as its memory goes. -/
def loaded (engine : Engine) (buffer : Nat) : Engine :=
  (engine.staged buffer).setArray buffer
    { engine.array buffer with
      storage := (engine.staged buffer).device.bytesOf (engine.device.buffers.size + 1)
      deviceDirty := false }

end Engine

/-- An array with the bytes of a read-back. The device has no more news if no kernel has written
since the copy. -/
def ArrayState.readBack (array : ArrayState) (readBack : ReadBack) (bytes : Bytes) : ArrayState :=
  { array with
    storage := bytes
    deviceDirty := if array.version = readBack.version then false else array.deviceDirty }

theorem ArrayState.readBack_of_version {array : ArrayState} {readBack : ReadBack}
    (h : array.version = readBack.version) (bytes : Bytes) :
    array.readBack readBack bytes = { array with storage := bytes, deviceDirty := false } := by
  rw [ArrayState.readBack, if_pos h]

namespace Engine

variable {touched : Nat → Prop} {engine : Engine} {buffer : Nat} {array : ArrayState}

/-- Only the last action of a read-back depends on the version of the array. -/
theorem exists_finishReadBack (engine : Engine) (buffer : Nat) (readBack : ReadBack) :
    ∃ middle : Engine,
      middle.memory = (engine.setArray buffer
        { engine.array buffer with
          storage := engine.device.bytesOf readBack.staging }).memory ∧
      stateAfter (Action.finishReadBack buffer readBack) engine =
        middle.setArray buffer
          (if (middle.array buffer).version = readBack.version then
            { middle.array buffer with deviceDirty := false }
          else middle.array buffer) := by
  refine ⟨_, ?_, rfl⟩
  exact (memory_retire _ _).trans rfl

/-- A read-back stores the staged bytes, and clears the news if it is of the current version. -/
theorem memory_finishReadBack {readBack : ReadBack}
    (hlookup : engine.arrays.lookup buffer = some array) :
    (stateAfter (Action.finishReadBack buffer readBack) engine).memory =
      (engine.setArray buffer
        (array.readBack readBack (engine.device.bytesOf readBack.staging))).memory := by
  obtain ⟨middle, hmiddle, hstate⟩ := exists_finishReadBack engine buffer readBack
  rw [array_of_lookup hlookup] at hmiddle
  have harray : middle.array buffer =
      { array with storage := engine.device.bytesOf readBack.staging } := by
    rw [array_eq_of_memory_eq hmiddle]
    exact array_setArray_self _ hlookup
  rw [hstate, harray, memory_setArray_congr hmiddle, setArray_setArray, ArrayState.readBack]
  split <;> rfl

theorem loadBlocking_cases (engine : Engine) (buffer : Nat) :
    ((engine.array buffer).deviceDirty = false ∧
      outcomeOf (Action.loadBlocking buffer) engine = .ok ⟨⟩ ∧
      stateAfter (Action.loadBlocking buffer) engine = engine) ∨
    ((engine.array buffer).deviceDirty = true ∧ engine.lost ≠ none ∧
      (∃ failure, outcomeOf (Action.loadBlocking buffer) engine = .error failure) ∧
      stateAfter (Action.loadBlocking buffer) engine = engine) ∨
    ((engine.array buffer).deviceDirty = true ∧ engine.lost = none ∧
      outcomeOf (Action.loadBlocking buffer) engine = .ok ⟨⟩ ∧
      (stateAfter (Action.loadBlocking buffer) engine).memory = (engine.loaded buffer).memory) := by
  simp only [Action.loadBlocking, outcomeOf_bind, stateAfter_bind, outcomeOf_array,
    stateAfter_array]
  cases hdirty : (engine.array buffer).deviceDirty with
  | false => exact .inl ⟨rfl, rfl, rfl⟩
  | true =>
    refine .inr ?_
    simp only [Bool.not_true, Bool.false_eq_true, if_false, outcomeOf_bind, stateAfter_bind]
    rcases copyToStaging_cases engine buffer with ⟨hlost, ⟨failure, hfailure⟩, hstate⟩ |
      ⟨hactive, houtcome, hstate⟩
    · rw [hfailure, hstate]
      exact .inl ⟨trivial, hlost, ⟨failure, rfl⟩, rfl⟩
    · rw [houtcome, hstate]
      refine .inr ⟨trivial, hactive, rfl, ?_⟩
      have hloaded : engine.loaded buffer = (engine.staged buffer).setArray buffer
          ((engine.array buffer).readBack
            ⟨engine.device.buffers.size + 1, engine.serial + 1, (engine.array buffer).version⟩
            ((engine.staged buffer).device.bytesOf (engine.device.buffers.size + 1))) := by
        rw [ArrayState.readBack_of_version rfl, loaded]
      rw [hloaded]
      exact memory_finishReadBack (exists_lookup_of_deviceDirty hdirty)

/-- Without news on the device, a blocking load does nothing. -/
theorem loadBlocking_of_clean (hclean : (engine.array buffer).deviceDirty = false) :
    outcomeOf (Action.loadBlocking buffer) engine = .ok ⟨⟩ ∧
      stateAfter (Action.loadBlocking buffer) engine = engine := by
  rcases loadBlocking_cases engine buffer with ⟨-, h⟩ | ⟨hdirty, -⟩ | ⟨hdirty, -⟩
  · exact h
  · rw [hclean] at hdirty
    cases hdirty
  · rw [hclean] at hdirty
    cases hdirty

/-! ### What loading leaves -/

theorem lookup_loaded {old : ArrayState} (h : engine.arrays.lookup buffer = some old) :
    (engine.loaded buffer).arrays.lookup buffer =
      some { engine.array buffer with
        storage := (engine.staged buffer).device.bytesOf (engine.device.buffers.size + 1)
        deviceDirty := false } := by
  unfold loaded
  rw [lookup_setArray, arrays_staged, h]
  simp

theorem steady_loaded (h : (engine.array buffer).deviceDirty = true) :
    Steady touched engine (engine.loaded buffer) := by
  have hfound := exists_lookup_of_deviceDirty h
  have hcount : engine.device.buffers.size ≤ (engine.loaded buffer).device.buffers.size := by
    have := count_staged engine buffer
    change _ ≤ (engine.staged buffer).device.buffers.size
    omega
  have hbytes : ∀ other, other ≤ engine.device.buffers.size →
      (engine.loaded buffer).device.bytesOf other = engine.device.bytesOf other :=
    fun other hother ↦ bytesOf_staged engine buffer hother
  refine .of_array buffer hcount (fun other hother ↦ lookup_setArray_of_ne _ hother)
    (fun other _ hother ↦ hbytes other hother) ?_
  intro array hlookup hcoherent
  obtain rfl := Option.some.inj (hlookup.symm.trans (lookup_loaded hfound))
  have hold := hcoherent buffer _ hfound
  have hsame := same_staging engine buffer hold.le
  have hclean : (engine.array buffer).hostDirty = false := by
    cases hhost : (engine.array buffer).hostDirty with
    | false => rfl
    | true => exact absurd ⟨hhost, h⟩ hold.exclusive
  refine ⟨⟨hold.pos, Nat.le_trans hold.le hcount, ?_, ?_, ?_, hold.idle⟩,
    fun _ ↦ ⟨⟨_, hfound⟩, ?_⟩⟩
  · rw [Device.sizeOf, hbytes buffer hold.le]
    exact hsame.1
  · rintro ⟨-, hdevice⟩
    cases hdevice
  · intro _ _
    rw [hbytes buffer hold.le]
    exact hsame
  · rw [content_of_lookup hlookup, content]
    simp only [hclean, Bool.false_eq_true, if_false]
    exact hbytes buffer hold.le

theorem steady_loadBlocking (buffer : Nat) :
    Moves (Steady touched) (Action.loadBlocking buffer) := by
  intro engine
  rcases loadBlocking_cases engine buffer with ⟨-, -, h⟩ | ⟨-, -, -, h⟩ | ⟨hdirty, -, -, h⟩
  · rw [h]
    exact .refl engine
  · rw [h]
    exact .refl engine
  · exact (steady_loaded hdirty).trans (.of_memory_eq h)

theorem exists_lookup_of_loadBlocking (h : engine.arrays.lookup buffer = some array) :
    ∃ loaded, (stateAfter (Action.loadBlocking buffer) engine).arrays.lookup buffer =
      some loaded := by
  rcases loadBlocking_cases engine buffer with ⟨-, -, hstate⟩ | ⟨-, -, -, hstate⟩ |
    ⟨-, -, -, hstate⟩
  · rw [hstate]
    exact ⟨array, h⟩
  · rw [hstate]
    exact ⟨array, h⟩
  · rw [(memory_eq_iff.mp hstate).1, lookup_loaded h]
    exact ⟨_, rfl⟩

/-- An array that has been loaded has no news on the device. -/
theorem deviceDirty_of_loadBlocking {result : PUnit}
    (h : outcomeOf (Action.loadBlocking buffer) engine = .ok result) :
    ((stateAfter (Action.loadBlocking buffer) engine).array buffer).deviceDirty = false := by
  rcases loadBlocking_cases engine buffer with
    ⟨hdirty, -, hstate⟩ | ⟨-, -, ⟨failure, hfailure⟩, -⟩ | ⟨hdirty, -, -, hstate⟩
  · rw [hstate]
    exact hdirty
  · rw [hfailure] at h
    cases h
  · rw [array_eq_of_memory_eq hstate,
      array_of_lookup (lookup_loaded (exists_lookup_of_deviceDirty hdirty))]

/-- Loading twice is loading once. -/
theorem loadBlocking_loadBlocking (engine : Engine) (buffer : Nat) :
    outcomeOf (do Action.loadBlocking buffer; Action.loadBlocking buffer) engine =
        outcomeOf (Action.loadBlocking buffer) engine ∧
      stateAfter (do Action.loadBlocking buffer; Action.loadBlocking buffer) engine =
        stateAfter (Action.loadBlocking buffer) engine := by
  rw [outcomeOf_bind, stateAfter_bind]
  cases houtcome : outcomeOf (Action.loadBlocking buffer) engine with
  | error failure => exact ⟨rfl, rfl⟩
  | ok done => exact loadBlocking_of_clean (deviceDirty_of_loadBlocking houtcome)

/-- A blocking load on an active engine leaves the content of the array in its host copy. -/
theorem alike_of_loadBlocking (hcoherent : engine.Coherent) (hactive : engine.lost = none)
    (hlookup : engine.arrays.lookup buffer = some array) :
    outcomeOf (Action.loadBlocking buffer) engine = .ok ⟨⟩ ∧
      (engine.single buffer).Alike
        ((stateAfter (Action.loadBlocking buffer) engine).array buffer) := by
  rw [single, array_of_lookup hlookup]
  have hcopies := hcoherent buffer array hlookup
  have hcontent := content_of_lookup hlookup
  rcases loadBlocking_cases engine buffer with
    ⟨hdirty, houtcome, hstate⟩ | ⟨-, hlost, -⟩ | ⟨hdirty, -, houtcome, hstate⟩
  · refine ⟨houtcome, array.storage, ?_, ?_⟩
    · rw [hstate]
      rw [array_of_lookup hlookup] at hdirty ⊢
      rw [← hdirty]
    · rw [hcontent]
      cases hhost : array.hostDirty with
      | true => exact .refl _
      | false =>
        rw [array_of_lookup hlookup] at hdirty
        exact hcopies.agreeing hhost hdirty
  · exact absurd hactive hlost
  · refine ⟨houtcome,
      (engine.staged buffer).device.bytesOf (engine.device.buffers.size + 1), ?_, ?_⟩
    · rw [array_eq_of_memory_eq hstate, array_of_lookup (lookup_loaded hlookup),
        array_of_lookup hlookup]
    · rw [array_of_lookup hlookup] at hdirty
      have hclean : array.hostDirty = false := by
        cases hhost : array.hostDirty with
        | false => rfl
        | true => exact absurd ⟨hhost, hdirty⟩ hcopies.exclusive
      rw [hcontent, hclean]
      exact same_staging engine buffer hcopies.le

/-! ### Asynchronous loads with nothing in between -/

/-- Starting a scheduled load stages the device buffer, unless the device is lost. -/
theorem startLoad_cases (hlookup : engine.arrays.lookup buffer = some array)
    (hloading : array.loading = .scheduled) :
    (engine.lost ≠ none ∧
      (∃ failure, outcomeOf (Action.startLoad buffer) engine = .error failure) ∧
      (stateAfter (Action.startLoad buffer) engine).memory =
        (engine.setArray buffer { array with loading := .idle }).memory) ∨
    (engine.lost = none ∧ outcomeOf (Action.startLoad buffer) engine = .ok true ∧
      (stateAfter (Action.startLoad buffer) engine).memory =
        ((engine.staged buffer).setArray buffer
          { array with
            loading := .copying
              ⟨engine.device.buffers.size + 1, engine.serial + 1, array.version⟩ }).memory) := by
  have harray := array_of_lookup hlookup
  set idle := engine.setArray buffer { array with loading := .idle } with hidle
  have hidleLookup : idle.arrays.lookup buffer = some { array with loading := .idle } :=
    lookup_setArray_self _ hlookup
  simp only [Action.startLoad, Action.setLoading, outcomeOf_bind, stateAfter_bind,
    outcomeOf_array, stateAfter_array, harray, hloading, outcomeOf_changeArray,
    stateAfter_changeArray, ← hidle]
  rcases copyToStaging_cases idle buffer with ⟨hlost, ⟨failure, hfailure⟩, hstate⟩ |
    ⟨hactive, houtcome, hstate⟩
  · rw [hfailure, hstate]
    exact .inl ⟨hlost, ⟨failure, rfl⟩, rfl⟩
  · rw [houtcome, hstate]
    refine .inr ⟨hactive, rfl, ?_⟩
    have hstaged : (idle.staged buffer).memory =
        ((engine.staged buffer).setArray buffer { array with loading := .idle }).memory := rfl
    have hstagedArray : (idle.staged buffer).array buffer = { array with loading := .idle } :=
      array_of_lookup hidleLookup
    have hversion : (idle.array buffer).version = array.version := by
      rw [array_of_lookup hidleLookup]
    change ((idle.staged buffer).setArray buffer
      { (idle.staged buffer).array buffer with
        loading := .copying ⟨_, _, (idle.array buffer).version⟩ }).memory = _
    rw [hversion, hstagedArray, memory_setArray_congr hstaged, setArray_setArray]
    rfl

/-- Finishing a load whose copy is on its way stores the staged bytes. -/
theorem memory_finishLoad {readBack : ReadBack}
    (hlookup : engine.arrays.lookup buffer = some array)
    (hloading : array.loading = .copying readBack) :
    outcomeOf (Action.finishLoad buffer) engine = .ok ⟨⟩ ∧
      (stateAfter (Action.finishLoad buffer) engine).memory =
        (engine.setArray buffer
          { array.readBack readBack (engine.device.bytesOf readBack.staging) with
            loading := .idle }).memory := by
  have harray := array_of_lookup hlookup
  simp only [Action.finishLoad, Action.setLoading, outcomeOf_bind, stateAfter_bind,
    outcomeOf_array, stateAfter_array, harray, hloading, outcomeOf_changeArray,
    stateAfter_changeArray]
  refine ⟨rfl, ?_⟩
  rw [memory_finishReadBack (lookup_setArray_self { array with loading := .idle } hlookup),
    setArray_setArray]
  rfl

/-- Without news on the device, and with no load under way, a load does nothing. -/
theorem load_of_clean (hclean : (engine.array buffer).deviceDirty = false)
    (hidle : (engine.array buffer).loading = .idle) :
    outcomeOf (Action.load buffer) engine = .ok ⟨⟩ ∧
      stateAfter (Action.load buffer) engine = engine := by
  simp [Action.load, Action.requestLoad, Action.startLoad, Action.finishLoad, outcomeOf_bind,
    stateAfter_bind, hclean, hidle]

/-- With nothing in between, an asynchronous load leaves what a blocking one leaves. -/
theorem memory_load (hidle : (engine.array buffer).loading = .idle) :
    (stateAfter (Action.load buffer) engine).memory =
        (stateAfter (Action.loadBlocking buffer) engine).memory ∧
      (engine.lost = none → outcomeOf (Action.load buffer) engine = .ok ⟨⟩) := by
  cases hdirty : (engine.array buffer).deviceDirty with
  | false =>
    obtain ⟨houtcome, hstate⟩ := load_of_clean hdirty hidle
    rw [hstate, (loadBlocking_of_clean hdirty).2]
    exact ⟨rfl, fun _ ↦ houtcome⟩
  | true =>
    have hlookup := exists_lookup_of_deviceDirty hdirty
    set array := engine.array buffer with harray
    set scheduled := engine.setArray buffer { array with loading := .scheduled } with hscheduled
    have hrequest : outcomeOf (Action.requestLoad buffer) engine = .ok ⟨⟩ ∧
        stateAfter (Action.requestLoad buffer) engine = scheduled := by
      obtain ⟨houtcome, ⟨hclean, -⟩ | ⟨-, -, hafter⟩⟩ := requestLoad_cases buffer engine
      · exact absurd hidle (hclean hdirty)
      · exact ⟨houtcome, hafter⟩
    have hfound : scheduled.arrays.lookup buffer = some { array with loading := .scheduled } :=
      lookup_setArray_self _ hlookup
    have hself : ({ array with loading := .idle } : ArrayState) = array := by rw [← hidle]
    simp only [Action.load, outcomeOf_bind, stateAfter_bind, hrequest.1, hrequest.2]
    rcases startLoad_cases hfound rfl with ⟨hlost, ⟨failure, hfailure⟩, hstate⟩ |
      ⟨hactive, houtcome, hstate⟩
    · refine ⟨?_, fun hactive ↦ absurd hactive hlost⟩
      have hafter : (stateAfter (Action.startLoad buffer) scheduled).memory = engine.memory := by
        rw [hstate, hscheduled, setArray_setArray, hself, memory_setArray_of_lookup hlookup]
      rw [hfailure]
      refine hafter.trans ?_
      rcases loadBlocking_cases engine buffer with ⟨hclean, -⟩ | ⟨-, -, -, h⟩ | ⟨-, hactive, -⟩
      · rw [← harray, hdirty] at hclean
        cases hclean
      · rw [h]
      · exact absurd hactive hlost
    · set middle := stateAfter (Action.startLoad buffer) scheduled with hmiddle
      have hstaged : (scheduled.staged buffer).arrays.lookup buffer =
          some { array with loading := .scheduled } := hfound
      have hcopying := ((memory_eq_iff.mp hstate).1 buffer).trans (lookup_setArray_self _ hstaged)
      obtain ⟨hfinish, hmemory⟩ := memory_finishLoad hcopying rfl
      rw [ArrayState.readBack_of_version rfl] at hmemory
      rw [houtcome]
      refine ⟨?_, fun _ ↦ hfinish⟩
      refine hmemory.trans ?_
      have hbytes := bytesOf_eq_of_memory_eq hstate (engine.device.buffers.size + 1)
      rcases loadBlocking_cases engine buffer with ⟨hclean, -⟩ | ⟨-, hlost, -⟩ | ⟨-, -, -, h⟩
      · rw [← harray, hdirty] at hclean
        cases hclean
      · exact absurd hactive hlost
      · have hfinal (storage : Bytes) :
            ({ array with storage, deviceDirty := false, loading := .idle } : ArrayState) =
              { array with storage, deviceDirty := false } := by
          rw [← hidle]
        have hsame : (scheduled.staged buffer).memory =
            ((engine.staged buffer).setArray buffer { array with loading := .scheduled }).memory :=
          rfl
        have hstored : middle.device.bytesOf (scheduled.device.buffers.size + 1) =
            (engine.staged buffer).device.bytesOf (engine.device.buffers.size + 1) := hbytes
        rw [h, memory_setArray_congr hstate, setArray_setArray, memory_setArray_congr hsame,
          setArray_setArray, hstored]
        exact congrArg (fun array ↦ ((engine.staged buffer).setArray buffer array).memory)
          (hfinal _)

end Engine

end ComputeArray
