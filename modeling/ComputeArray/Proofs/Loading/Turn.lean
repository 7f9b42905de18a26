import ComputeArray.Proofs.Aliasing.Submission
import ComputeArray.Proofs.Memory.Reach

/-!
# Turns of an array

An asynchronous load of an array is requested, started and finished by three primitives, and others
may come between them. `Engine.Turn` lists all that a primitive then does to the array: nothing, its
part of the load, or news from a kernel (`turn_of_after`). Excepted are the primitives by which
callers store in the array, load it at once, or mark or poke its buffer. Whatever does not store in
the array or load it leaves the device all its news of it (`outlives_of_after`).
-/

set_option autoImplicit false

namespace ComputeArray

open Engine

variable {engine : Engine} {buffer : Nat} {old new : ArrayState}

/-- The host copy of an array holds the given bytes, and its elements are got from them. -/
structure Engine.Reflects (engine : Engine) (buffer : Nat) (bytes : Bytes) : Prop where
  storage : (engine.array buffer).storage.Same bytes
  element : ∀ index, outcomeOf (Action.hostElement buffer index) engine =
    ({ engine.array buffer with storage := bytes } : ArrayState).elementAt index
  view : (engine.array buffer).viewElements =
    ({ engine.array buffer with storage := bytes } : ArrayState).viewElements

theorem reflects_of_same {bytes : Bytes} (h : (engine.array buffer).storage.Same bytes) :
    engine.Reflects buffer bytes := by
  have halike : ({ engine.array buffer with storage := bytes } : ArrayState).Alike
      (engine.array buffer) := ⟨(engine.array buffer).storage, rfl, h⟩
  refine ⟨h, fun index ↦ ?_, halike.viewElements⟩
  simp only [Action.hostElement, outcomeOf_bind, outcomeOf_array, stateAfter_array,
    outcomeOf_actionOfExcept]
  exact halike.elementAt index

namespace Primitive

/-- The primitive is a part of an asynchronous load of the array, or a submission, or it does not
reach the array. -/
def Interleaves (buffer : Nat) : Primitive → Prop
  | submit dispatches _ _ => ∀ dispatch ∈ dispatches, dispatch.ReadsPlain
  | setValue target _ _ => target ≠ buffer
  | setElements target _ => target ≠ buffer
  | loadBlocking target => target ≠ buffer
  | load target => target ≠ buffer
  | markDeviceDirty target => target ≠ buffer
  | poke target _ _ => target ≠ buffer
  | _ => True

/-- Only submissions and the parts of a load reach the array. -/
theorem Interleaves.cases_of_reaches {primitive : Primitive} (h : primitive.Interleaves buffer)
    (hreaches : primitive.Reaches buffer) :
    primitive = .requestLoad buffer ∨ primitive = .startLoad buffer ∨
      primitive = .finishLoad buffer ∨
        ∃ dispatches helpers copies, primitive = .submit dispatches helpers copies ∧
          buffer ∈ writtenBy dispatches copies := by
  cases primitive with
  | submit dispatches helpers copies =>
    exact .inr (.inr (.inr ⟨_, _, _, rfl, hreaches.resolve_right (not_not.mpr h)⟩))
  | requestLoad target => exact .inl (congrArg _ hreaches.symm)
  | startLoad target => exact .inr (.inl (congrArg _ hreaches.symm))
  | finishLoad target => exact .inr (.inr (.inl (congrArg _ hreaches.symm)))
  | setValue target value index => exact absurd hreaches.symm h
  | setElements target values => exact absurd hreaches.symm h
  | loadBlocking target => exact absurd hreaches.symm h
  | load target => exact absurd hreaches.symm h
  | markDeviceDirty target => exact absurd hreaches.symm h
  | poke target start bytes => exact absurd hreaches.symm h
  | _ => exact hreaches.elim

end Primitive

namespace Engine

/-- The device has a later version of an array, and loads go on. -/
structure Rewritten (old new : ArrayState) : Prop where
  deviceDirty : new.deviceDirty = true
  version : old.version < new.version
  loading : new.loading = old.loading

/-- What a primitive does to an array. -/
inductive Turn (engine : Engine) (buffer : Nat) (old new : ArrayState) : Primitive → Prop
  | spared {primitive : Primitive}
      (untroubled : Untroubled engine (engine.after primitive) buffer old new) :
      Turn engine buffer old new primitive
  | requested (idle : old.loading = .idle) (news : old.deviceDirty = true)
      (made : new = { old with loading := .scheduled })
      (bytes : (engine.after (.requestLoad buffer)).device.bytesOf buffer =
        engine.device.bytesOf buffer) :
      Turn engine buffer old new (.requestLoad buffer)
  /-- The device is lost. -/
  | abandoned (scheduled : old.loading = .scheduled) (made : new = { old with loading := .idle })
      (bytes : (engine.after (.startLoad buffer)).device.bytesOf buffer =
        engine.device.bytesOf buffer) :
      Turn engine buffer old new (.startLoad buffer)
  /-- A new staging buffer gets the bytes the device has now. -/
  | started {readBack : ReadBack} (scheduled : old.loading = .scheduled)
      (made : new = { old with loading := .copying readBack })
      (version : readBack.version = old.version)
      (plain : (engine.after (.startLoad buffer)).arrays.lookup readBack.staging = none)
      (staged : ((engine.after (.startLoad buffer)).device.bytesOf readBack.staging).Same
        (engine.device.bytesOf buffer))
      (bytes : (engine.after (.startLoad buffer)).device.bytesOf buffer =
        engine.device.bytesOf buffer) :
      Turn engine buffer old new (.startLoad buffer)
  | finished {readBack : ReadBack} (copying : old.loading = .copying readBack)
      (made : new = { old.readBack readBack (engine.device.bytesOf readBack.staging) with
        loading := .idle })
      (bytes : (engine.after (.finishLoad buffer)).device.bytesOf buffer =
        engine.device.bytesOf buffer) :
      Turn engine buffer old new (.finishLoad buffer)
  | written {dispatches : List Dispatch} {helpers : List Nat} {copies : List (Nat × Nat)}
      (written : buffer ∈ writtenBy dispatches copies) (rewritten : Rewritten old new) :
      Turn engine buffer old new (.submit dispatches helpers copies)

end Engine

theorem turn_of_eq {primitive : Primitive} (h : engine.after primitive = engine)
    (hnew : (engine.after primitive).arrays.lookup buffer = some new) :
    ∃ old, engine.arrays.lookup buffer = some old ∧ Turn engine buffer old new primitive := by
  rw [h] at hnew
  refine ⟨new, hnew, .spared ?_⟩
  rw [h]
  exact .refl engine buffer new

/-! ### The parts of a load -/

/-- A load at once is its three parts with nothing in between. -/
theorem after_load (engine : Engine) (buffer : Nat) :
    engine.after (.load buffer) =
      engine.afterAll [.requestLoad buffer, .startLoad buffer, .finishLoad buffer] := by
  have hrequest : outcomeOf (Action.requestLoad buffer) engine = .ok ⟨⟩ :=
    (requestLoad_cases buffer engine).1
  set requested := stateAfter (Action.requestLoad buffer) engine with hrequested
  have hstart := after_startLoad requested buffer
  have hsplit : engine.afterAll [.requestLoad buffer, .startLoad buffer, .finishLoad buffer] =
      stateAfter (Action.finishLoad buffer) (stateAfter (Action.startLoad buffer) requested) := by
    rw [← hstart]
    rfl
  rw [hsplit, after, Primitive.action, Action.load, stateAfter_bind_of_ok hrequest, ← hrequested,
    stateAfter_bind]
  cases houtcome : outcomeOf (Action.startLoad buffer) requested with
  | ok started => rfl
  | error failure =>
    -- A load that cannot start is not under way, so there is nothing to finish.
    by_cases hloading : (requested.array buffer).loading = .scheduled
    · have hlookup := exists_lookup_of_loading (by rw [hloading]; simp)
      rcases startLoad_cases hlookup hloading with ⟨-, -, hmemory⟩ | ⟨-, hok, -⟩
      · refine (finishLoad_of_not_copying fun readBack ↦ ?_).1.symm
        rw [array_eq_of_memory_eq hmemory, array_setArray_self _ hlookup]
        exact Loading.noConfusion
      · rw [hok] at houtcome
        cases houtcome
    · rw [(startLoad_of_not_scheduled hloading).2] at houtcome
      cases houtcome

theorem turn_of_requestLoad
    (hnew : (engine.after (.requestLoad buffer)).arrays.lookup buffer = some new) :
    ∃ old, engine.arrays.lookup buffer = some old ∧
      Turn engine buffer old new (.requestLoad buffer) := by
  have hafter : engine.after (.requestLoad buffer) =
      stateAfter (Action.requestLoad buffer) engine := rfl
  rcases (requestLoad_cases buffer engine).2 with ⟨-, hsame⟩ | ⟨hnews, hidle, hscheduled⟩
  · exact turn_of_eq (hafter.trans hsame) hnew
  · have hlookup := exists_lookup_of_deviceDirty hnews
    rw [hscheduled] at hafter
    rw [hafter] at hnew
    obtain rfl := Option.some.inj (hnew.symm.trans (lookup_setArray_self _ hlookup))
    exact ⟨_, hlookup, .requested hidle hnews rfl (by rw [hafter]; rfl)⟩

theorem turn_of_startLoad (hfitting : engine.Fitting)
    (hnew : (engine.after (.startLoad buffer)).arrays.lookup buffer = some new) :
    ∃ old, engine.arrays.lookup buffer = some old ∧
      Turn engine buffer old new (.startLoad buffer) := by
  have hafter := after_startLoad engine buffer
  by_cases hloading : (engine.array buffer).loading = .scheduled
  · have hlookup := exists_lookup_of_loading (by rw [hloading]; simp)
    have hle := (hfitting buffer _ hlookup).le
    rcases startLoad_cases hlookup hloading with ⟨-, -, hmemory⟩ | ⟨-, -, hmemory⟩
    · rw [← hafter] at hmemory
      have hself := ((memory_eq_iff.mp hmemory).1 buffer).trans (lookup_setArray_self _ hlookup)
      obtain rfl := Option.some.inj (hnew.symm.trans hself)
      exact ⟨_, hlookup, .abandoned hloading rfl (bytesOf_eq_of_memory_eq hmemory buffer)⟩
    · rw [← hafter] at hmemory
      have hself := ((memory_eq_iff.mp hmemory).1 buffer).trans
        (@lookup_setArray_self (engine.staged buffer) buffer _ _ hlookup)
      obtain rfl := Option.some.inj (hnew.symm.trans hself)
      refine ⟨_, hlookup, .started hloading rfl rfl ?_ ?_ ?_⟩
      · have hnone : engine.arrays.lookup (engine.device.buffers.size + 1) = none := by
          rw [Option.eq_none_iff_forall_ne_some]
          intro array harray
          exact absurd (hfitting _ _ harray).le (Nat.not_succ_le_self _)
        rw [(memory_eq_iff.mp hmemory).1, lookup_setArray, arrays_staged, hnone]
        rfl
      · rw [bytesOf_eq_of_memory_eq hmemory]
        exact same_staging engine buffer hle
      · rw [bytesOf_eq_of_memory_eq hmemory]
        exact bytesOf_staged engine buffer hle
  · exact turn_of_eq (hafter.trans (startLoad_of_not_scheduled hloading).1) hnew

theorem turn_of_finishLoad
    (hnew : (engine.after (.finishLoad buffer)).arrays.lookup buffer = some new) :
    ∃ old, engine.arrays.lookup buffer = some old ∧
      Turn engine buffer old new (.finishLoad buffer) := by
  by_cases hcopying : ∃ readBack, (engine.array buffer).loading = .copying readBack
  · obtain ⟨readBack, hloading⟩ := hcopying
    have hlookup := exists_lookup_of_loading (by rw [hloading]; simp)
    have hmemory := (memory_finishLoad hlookup hloading).2
    have hself := ((memory_eq_iff.mp hmemory).1 buffer).trans (lookup_setArray_self _ hlookup)
    obtain rfl := Option.some.inj (hnew.symm.trans hself)
    exact ⟨_, hlookup, .finished hloading rfl (bytesOf_eq_of_memory_eq hmemory buffer)⟩
  · exact turn_of_eq (finishLoad_of_not_copying fun readBack h ↦ hcopying ⟨readBack, h⟩).1 hnew

/-! ### Submissions -/

theorem spared_prepare (dispatches : List Dispatch) (copies : List (Nat × Nat))
    (hfitting : engine.Fitting) (hle : buffer ≤ engine.device.buffers.size) :
    Spared engine (stateAfter (Action.prepare dispatches copies) engine) buffer := by
  have hconfined : Confined (fun _ ↦ False) engine
      (stateAfter (Action.prepare dispatches copies) engine) :=
    confined_prepare dispatches copies engine
  exact (hconfined hfitting).2.2 buffer hle id

theorem turn_of_submit {dispatches : List Dispatch} {helpers : List Nat}
    {copies : List (Nat × Nat)} (hfitting : engine.Fitting)
    (hle : buffer ≤ engine.device.buffers.size) (hwritten : buffer ∈ writtenBy dispatches copies)
    (hnew : (engine.after (.submit dispatches helpers copies)).arrays.lookup buffer = some new) :
    ∃ old, engine.arrays.lookup buffer = some old ∧
      Turn engine buffer old new (.submit dispatches helpers copies) := by
  have hafter := after_submit engine dispatches helpers copies
  have hprepared := spared_prepare dispatches copies hfitting hle
  rcases submit_cases dispatches helpers copies engine with
    h | h | ⟨commands, marked, serial, -, hmarked, h⟩
  · exact turn_of_eq (hafter.trans h) hnew
  · have hnew' := hnew
    rw [hafter, h] at hnew'
    obtain ⟨old, hold, huntroubled⟩ := hprepared.array new hnew'
    exact ⟨old, hold, .spared (by rw [hafter, h]; exact huntroubled)⟩
  · rw [hafter, h, (memory_eq_iff.mp (memory_settle serial helpers _)).1] at hnew
    obtain ⟨middle, hmiddle, hnews⟩ := hmarked.marked buffer hwritten new hnew
    obtain ⟨old, hold, huntroubled⟩ := hprepared.array middle hmiddle
    exact ⟨old, hold, .written hwritten ⟨hnews.deviceDirty, huntroubled.version ▸ hnews.version,
      hnews.loading.trans huntroubled.loading⟩⟩

/-- An array that is there after a primitive was there before, and has had one of the turns. -/
theorem turn_of_after {primitive : Primitive} (hfitting : engine.Fitting)
    (hfaithful : engine.FaithfulCaches) (hle : buffer ≤ engine.device.buffers.size)
    (h : primitive.Interleaves buffer)
    (hnew : (engine.after primitive).arrays.lookup buffer = some new) :
    ∃ old, engine.arrays.lookup buffer = some old ∧ Turn engine buffer old new primitive := by
  by_cases hreaches : primitive.Reaches buffer
  · rcases h.cases_of_reaches hreaches with
      rfl | rfl | rfl | ⟨dispatches, helpers, copies, rfl, hwritten⟩
    · exact turn_of_requestLoad hnew
    · exact turn_of_startLoad hfitting hnew
    · exact turn_of_finishLoad hnew
    · exact turn_of_submit hfitting hle hwritten hnew
  · obtain ⟨old, hold, huntroubled⟩ :=
      ((confined_after primitive hfaithful hfitting).2.2 buffer hle hreaches).array new hnew
    exact ⟨old, hold, .spared huntroubled⟩

/-! ### Beside the loads of an array -/

namespace Primitive

/-- The primitive is no part of a load of the array, and does not store in it. -/
def Beside (buffer : Nat) : Primitive → Prop
  | setValue target _ _ => target ≠ buffer
  | setElements target _ => target ≠ buffer
  | loadBlocking target => target ≠ buffer
  | load target => target ≠ buffer
  | requestLoad target => target ≠ buffer
  | startLoad target => target ≠ buffer
  | finishLoad target => target ≠ buffer
  | _ => True

end Primitive

namespace Engine

/-- An array at a later time: its loads go on, and the device has at least the news it had. -/
structure Outlives (old new : ArrayState) : Prop where
  loading : new.loading = old.loading
  version : old.version ≤ new.version
  deviceDirty : old.deviceDirty = true → new.deviceDirty = true

theorem Rewritten.outlives (h : Rewritten old new) : Outlives old new :=
  ⟨h.loading, Nat.le_of_lt h.version, fun _ ↦ h.deviceDirty⟩

theorem Marked.rewritten (h : Marked old new) : Rewritten old new :=
  ⟨h.deviceDirty, h.version, h.loading⟩

theorem Untroubled.outlives {after : Engine} (h : Untroubled engine after buffer old new) :
    Outlives old new :=
  ⟨h.loading, Nat.le_of_eq h.version.symm, fun hdirty ↦ h.deviceDirty.trans hdirty⟩

theorem Outlives.refl (array : ArrayState) : Outlives array array :=
  ⟨rfl, Nat.le_refl _, id⟩

/-- The array of a buffer can be followed through whatever happens to the engine. -/
structure Follows (engine : Engine) (buffer : Nat) : Prop where
  fitting : engine.Fitting
  faithfulCaches : engine.FaithfulCaches
  le : buffer ≤ engine.device.buffers.size

theorem Follows.after (h : engine.Follows buffer) (primitive : Primitive) :
    (engine.after primitive).Follows buffer := by
  obtain ⟨hfitting, hcount, -⟩ := confined_after primitive h.faithfulCaches h.fitting
  exact ⟨hfitting, (caching_after primitive engine h.faithfulCaches).1, Nat.le_trans h.le hcount⟩

theorem Follows.setLoading (h : engine.Follows buffer) :
    (stateAfter (Action.setLoading buffer .idle) engine).Follows buffer := by
  have hconfined : Confined (· = buffer) engine
      (stateAfter (Action.setLoading buffer .idle) engine) := confined_setLoading nofun
  obtain ⟨hfitting, hcount, -⟩ := hconfined h.fitting
  have hcaching : Caching engine (stateAfter (Action.setLoading buffer .idle) engine) :=
    .of_caches_eq rfl
  exact ⟨hfitting, (hcaching h.faithfulCaches).1, Nat.le_trans h.le hcount⟩

end Engine

/-- A submission marks the array as written, or leaves it alone. -/
theorem outlives_of_submit {dispatches : List Dispatch} {helpers : List Nat}
    {copies : List (Nat × Nat)} (h : engine.Follows buffer)
    (hnew : (engine.after (.submit dispatches helpers copies)).arrays.lookup buffer = some new) :
    ∃ old, engine.arrays.lookup buffer = some old ∧ Outlives old new := by
  have hafter := after_submit engine dispatches helpers copies
  have hprepared := spared_prepare dispatches copies h.fitting h.le
  rw [hafter] at hnew
  rcases submit_cases dispatches helpers copies engine with
    hsame | hsame | ⟨commands, marked, serial, -, hmarked, hsubmitted⟩
  · exact ⟨new, hsame ▸ hnew, .refl new⟩
  · obtain ⟨old, hold, huntroubled⟩ := hprepared.array new (hsame ▸ hnew)
    exact ⟨old, hold, huntroubled.outlives⟩
  · rw [hsubmitted, (memory_eq_iff.mp (memory_settle serial helpers _)).1] at hnew
    by_cases hwritten : buffer ∈ writtenBy dispatches copies
    · obtain ⟨middle, hmiddle, hnews⟩ := hmarked.marked buffer hwritten new hnew
      obtain ⟨old, hold, huntroubled⟩ := hprepared.array middle hmiddle
      have hrewritten := hnews.rewritten
      exact ⟨old, hold, hrewritten.loading.trans huntroubled.loading,
        huntroubled.version ▸ Nat.le_of_lt hrewritten.version, fun _ ↦ hrewritten.deviceDirty⟩
    · obtain ⟨old, hold, huntroubled⟩ :=
        hprepared.array new ((hmarked.others buffer hwritten).symm.trans hnew)
      exact ⟨old, hold, huntroubled.outlives⟩

/-- Nothing beside the loads of an array takes news of the device from it. -/
theorem outlives_of_after {primitive : Primitive} (h : engine.Follows buffer)
    (hbeside : primitive.Beside buffer)
    (hnew : (engine.after primitive).arrays.lookup buffer = some new) :
    ∃ old, engine.arrays.lookup buffer = some old ∧ Outlives old new := by
  have hturn (hinterleaves : primitive.Interleaves buffer) :
      ∃ old, engine.arrays.lookup buffer = some old ∧ Outlives old new := by
    obtain ⟨old, hold, hturn⟩ := turn_of_after h.fitting h.faithfulCaches h.le hinterleaves hnew
    refine ⟨old, hold, ?_⟩
    cases hturn with
    | spared untroubled => exact untroubled.outlives
    | written written rewritten => exact rewritten.outlives
    | requested => exact absurd rfl hbeside
    | abandoned => exact absurd rfl hbeside
    | started => exact absurd rfl hbeside
    | finished => exact absurd rfl hbeside
  cases primitive with
  | submit dispatches helpers copies => exact outlives_of_submit h hnew
  | markDeviceDirty target =>
    by_cases htarget : target = buffer
    · subst htarget
      change (engine.setArray target _).arrays.lookup target = some new at hnew
      rw [lookup_setArray] at hnew
      obtain ⟨old, hold, hmarked⟩ := Option.map_eq_some_iff.mp hnew
      rw [if_pos rfl, array_of_lookup hold] at hmarked
      exact ⟨old, hold, hmarked ▸ ⟨rfl, Nat.le_succ _, fun _ ↦ rfl⟩⟩
    · exact hturn htarget
  | poke target start bytes => exact ⟨new, hnew, .refl new⟩
  | setValue target value index => exact hturn hbeside
  | setElements target values => exact hturn hbeside
  | loadBlocking target => exact hturn hbeside
  | load target => exact hturn hbeside
  | _ => exact hturn trivial

/-- What a submission that goes out writes has a later version. -/
theorem rewritten_of_submit {dispatches : List Dispatch} {helpers : List Nat}
    {copies : List (Nat × Nat)} {serial : Nat} (hfitting : engine.Fitting)
    (hwritten : buffer ∈ writtenBy dispatches copies)
    (h : outcomeOf (Action.submit dispatches helpers copies) engine = .ok serial)
    (hold : engine.arrays.lookup buffer = some old) :
    ∃ new, (engine.after (.submit dispatches helpers copies)).arrays.lookup buffer = some new ∧
      Rewritten old new := by
  obtain ⟨commands, marked, -, -, hmark, -, hafter⟩ := submit_eq_ok h
  set prepared := stateAfter (Action.prepare dispatches copies) engine
  obtain ⟨hmarked, -⟩ := markedAll_forM (writtenBy dispatches copies) prepared
  have hfixture : SameFixture prepared marked := by
    rw [hmark]
    exact Moves.forM _ (fun buffer _ ↦ sameFixture_markDeviceDirty buffer) prepared
  rw [← hmark] at hmarked
  obtain ⟨new, hnew, hnews⟩ := exists_marked_of_prepare hfitting hmarked hfixture hwritten hold
  refine ⟨new, ?_, hnews.rewritten⟩
  rw [after_submit, hafter,
    (memory_eq_iff.mp (memory_settle serial helpers _)).1]
  exact hnew

/-! ### What the parts of a load leave and submit -/

theorem submissions_record {call : Call} (device : Device)
    (h : ∀ commands, call ≠ .submit commands) :
    (device.record call).submissions = device.submissions := by
  rw [Device.submissions, Device.record, Array.toList_push, List.filterMap_append]
  cases call with
  | submit commands => exact absurd rfl (h commands)
  | _ => exact List.append_nil _

theorem submissions_staged (engine : Engine) (buffer : Nat) :
    (engine.staged buffer).device.submissions = engine.device.submissions ++
      [[.copy buffer (engine.device.buffers.size + 1) (engine.device.sizeOf buffer)]] := by
  refine (Device.submissions_submit _ _).trans (congrArg (· ++ _) ?_)
  exact submissions_record _ nofun

/-- A requested load is scheduled, and no more. -/
theorem requestLoad_of_news (hidle : (engine.array buffer).loading = .idle)
    (hnews : (engine.array buffer).deviceDirty = true) :
    stateAfter (Action.requestLoad buffer) engine =
      engine.setArray buffer { engine.array buffer with loading := .scheduled } := by
  rcases (requestLoad_cases buffer engine).2 with ⟨hclean, -⟩ | ⟨-, -, hafter⟩
  · exact absurd hidle (hclean hnews)
  · exact hafter

/-- A load that starts stages the buffer, and no more is submitted. -/
theorem submissions_startLoad (hloading : (engine.array buffer).loading = .scheduled)
    (hactive : engine.lost = none) :
    (stateAfter (Action.startLoad buffer) engine).device.submissions =
      (engine.staged buffer).device.submissions := by
  set idle := engine.setArray buffer { engine.array buffer with loading := .idle } with hidle
  simp only [Action.startLoad, Action.setLoading, stateAfter_bind, outcomeOf_array,
    stateAfter_array, hloading, outcomeOf_changeArray, stateAfter_changeArray, ← hidle]
  rcases copyToStaging_cases idle buffer with ⟨hlost, -⟩ | ⟨-, houtcome, hstate⟩
  · exact absurd hactive hlost
  · rw [houtcome, hstate]
    exact submissions_record (idle.staged buffer).device fun commands h ↦ by cases h

/-- A load that starts submits one copy. -/
theorem startLoad_of_active (hloading : (engine.array buffer).loading = .scheduled)
    (hactive : engine.lost = none) :
    ∃ readBack : ReadBack, readBack.version = (engine.array buffer).version ∧
      outcomeOf (Action.startLoad buffer) engine = .ok true ∧
      (stateAfter (Action.startLoad buffer) engine).array buffer =
        { engine.array buffer with loading := .copying readBack } ∧
      (stateAfter (Action.startLoad buffer) engine).device.submissions =
        engine.device.submissions ++
          [[.copy buffer readBack.staging (engine.device.sizeOf buffer)]] := by
  have hlookup := exists_lookup_of_loading (by rw [hloading]; nofun)
  rcases startLoad_cases hlookup hloading with ⟨hlost, -⟩ | ⟨-, houtcome, hmemory⟩
  · exact absurd hactive hlost
  · refine ⟨_, rfl, houtcome, (array_eq_of_memory_eq hmemory buffer).trans
      (@array_setArray_self (engine.staged buffer) buffer _ _ hlookup), ?_⟩
    rw [submissions_startLoad hloading hactive, submissions_staged]

theorem submissions_finishReadBack (engine : Engine) (buffer : Nat) (readBack : ReadBack) :
    (stateAfter (Action.finishReadBack buffer readBack) engine).device.submissions =
      engine.device.submissions := by
  have hmapped (device : Device) :
      ((device.record (.unmap readBack.staging)).record
        (.destroyBuffer readBack.staging)).submissions = device.submissions := by
    rw [submissions_record _ (by nofun), submissions_record _ (by nofun)]
  exact (Device.submissions_foldl_destroy _ _).trans (hmapped _)

/-- The end of a load submits nothing. -/
theorem submissions_finishLoad (engine : Engine) (buffer : Nat) :
    (stateAfter (Action.finishLoad buffer) engine).device.submissions =
      engine.device.submissions := by
  by_cases hcopying : ∃ readBack, (engine.array buffer).loading = .copying readBack
  · obtain ⟨readBack, hloading⟩ := hcopying
    simp only [Action.finishLoad, Action.setLoading, stateAfter_bind,
      outcomeOf_array, stateAfter_array, hloading, outcomeOf_changeArray, stateAfter_changeArray]
    exact submissions_finishReadBack _ _ _
  · rw [(finishLoad_of_not_copying fun readBack h ↦ hcopying ⟨readBack, h⟩).1]

/-- The end of a load stores the staged bytes, and takes the news if there are no later ones. -/
theorem array_finishLoad {readBack : ReadBack}
    (hloading : (engine.array buffer).loading = .copying readBack) :
    (stateAfter (Action.finishLoad buffer) engine).array buffer =
      { (engine.array buffer).readBack readBack (engine.device.bytesOf readBack.staging) with
        loading := .idle } := by
  have hlookup := exists_lookup_of_loading (by rw [hloading]; nofun)
  rw [array_eq_of_memory_eq (memory_finishLoad hlookup hloading).2, array_setArray_self _ hlookup]

end ComputeArray
