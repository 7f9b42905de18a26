import ComputeArray.Proofs.Queue.Backlog

/-!
# Lost devices

The loss of a device is final. An engine that has lost it has nothing pending (`Reachable.cleared`),
and as long as no read-back is under way, nothing that can be asked of the engine leads to a call of
the device or to another serial, and the first notice of the loss stays (`terminal_after`).
-/

set_option autoImplicit false

namespace ComputeArray

open Engine

/-- What fails because of the loss. -/
def LossNotice.failure (notice : LossNotice) : Failure :=
  .deviceLost notice.reason notice.message

namespace Engine

/-! ### Queues of lost engines -/

/-- With the device, all that was pending is gone. -/
def Cleared (engine : Engine) : Prop := engine.lost ≠ none → engine.pending = []

variable {engine : Engine} {notice : LossNotice}

theorem lost_release (buffer : Nat) (engine : Engine) :
    (engine.release buffer).lost = engine.lost ∧
      (engine.lost ≠ none → (engine.release buffer).pending = engine.pending) := by
  obtain ⟨-, h⟩ | ⟨-, pending, h, hpending⟩ := release_cases buffer engine
  · rw [h]
    exact ⟨rfl, fun _ ↦ rfl⟩
  · rw [h]
    refine ⟨rfl, fun hlost ↦ ?_⟩
    obtain ⟨-, rfl⟩ | ⟨hactive, -⟩ := hpending
    · rfl
    · exact absurd hactive hlost

theorem lost_foldl_release (buffers : List Nat) (engine : Engine) :
    let released := buffers.foldl (fun engine buffer ↦ engine.release buffer) engine
    released.lost = engine.lost ∧ (engine.lost ≠ none → released.pending = engine.pending) := by
  induction buffers generalizing engine with
  | nil => exact ⟨rfl, fun _ ↦ rfl⟩
  | cons buffer rest ih =>
    obtain ⟨hlost, hpending⟩ := lost_release buffer engine
    obtain ⟨hlost', hpending'⟩ := ih (engine.release buffer)
    exact ⟨hlost'.trans hlost, fun h ↦ (hpending' (hlost ▸ h)).trans (hpending h)⟩

theorem lost_collect (arrays generators : List Nat) (engine : Engine) :
    (engine.collect arrays generators).lost = engine.lost ∧
      (engine.lost ≠ none → (engine.collect arrays generators).pending = engine.pending) :=
  lost_foldl_release _ (engine.keepGenerators generators)

/-- Submissions leave the device as it is, lost or not. -/
def SameLoss (before after : Engine) : Prop := after.lost = before.lost

instance : Std.Refl SameLoss := ⟨fun _ ↦ rfl⟩

instance : IsTrans Engine SameLoss := ⟨fun _ _ _ hfirst hlast ↦ Eq.trans hlast hfirst⟩

end Engine

theorem sameLoss_submit (dispatches : List Dispatch) (helpers : List Nat)
    (copies : List (Nat × Nat)) :
    Moves SameLoss (Action.submit dispatches helpers copies) := by
  have hsend (buffer : Nat) : Moves SameLoss (Action.send buffer) := by
    refine .bind (.array buffer) fun array ↦ ?_
    split
    · exact .pure _
    · exact .bind .assertActive fun _ ↦ .bind (fun _ ↦ rfl) fun _ ↦ fun _ ↦ rfl
  refine .submit hsend (fun _ ↦ rfl)
    (fun dispatch ↦ (compiles_encode dispatch).mono fun _ _ h ↦ ?_) (fun _ _ ↦ rfl)
    (fun _ _ ↦ rfl) (fun serial helpers ↦ ?_) _ _ _
  · exact congrArg (·.2.1) h.rest
  · refine .bind (.update fun _ ↦ rfl) fun _ ↦ .bind .get fun engine ↦ ?_
    split
    · exact .bind (fun _ ↦ rfl) fun _ ↦ .update fun _ ↦ rfl
    · exact .pure _

/-! ### Refusals -/

/-- What checks for the loss first fails and does nothing. -/
theorem refused_of_lost {α : Type} {engine : Engine} {notice : LossNotice}
    (h : engine.lost = some notice) (f : PUnit → Action α) :
    outcomeOf (Action.assertActive >>= f) engine = .error notice.failure ∧
      stateAfter (Action.assertActive >>= f) engine = engine := by
  have hrefused : outcomeOf Action.assertActive engine = .error notice.failure := by
    simp only [Action.assertActive, outcomeOf_bind, outcomeOf_get, stateAfter_get, h]
    rfl
  rw [outcomeOf_bind, stateAfter_bind, hrefused, stateAfter_assertActive]
  exact ⟨rfl, rfl⟩

theorem submit_of_lost {engine : Engine} {notice : LossNotice} (h : engine.lost = some notice)
    (dispatches : List Dispatch) (helpers : List Nat) (copies : List (Nat × Nat)) :
    outcomeOf (Action.submit dispatches helpers copies) engine = .error notice.failure ∧
      stateAfter (Action.submit dispatches helpers copies) engine = engine :=
  refused_of_lost h _

theorem cleared_after {engine : Engine} (h : engine.Cleared) (primitive : Primitive) :
    (engine.after primitive).Cleared := by
  intro hlost
  have hdrained (hdrains : Drains engine (engine.after primitive)) :
      (engine.after primitive).pending = [] := by
    rcases hdrains.lost with hsame | hempty
    · exact List.suffix_nil.mp (h (hsame ▸ hlost) ▸ hdrains.pending)
    · exact hempty
  cases primitive with
  | submit dispatches helpers copies =>
    have hstate := after_submit engine dispatches helpers copies
    rw [hstate] at hlost ⊢
    have hlost' : engine.lost ≠ none :=
      (sameLoss_submit dispatches helpers copies engine : _ = _) ▸ hlost
    obtain ⟨notice, hnotice⟩ := Option.ne_none_iff_exists'.mp hlost'
    rw [(submit_of_lost hnotice dispatches helpers copies).2]
    exact h hlost'
  | release buffer =>
    obtain ⟨hsame, hpending⟩ := lost_release buffer engine
    exact (hpending (hsame ▸ hlost)).trans (h (hsame ▸ hlost))
  | collect arrays generators =>
    obtain ⟨hsame, hpending⟩ := lost_collect arrays generators engine
    exact (hpending (hsame ▸ hlost)).trans (h (hsame ▸ hlost))
  | _ => exact hdrained (drains_after id engine)

theorem Engine.Reachable.cleared {engine : Engine} (h : engine.Reachable) : engine.Cleared := by
  obtain ⟨computing, features, limits, destroyFailure, options, primitives, -, rfl⟩ := h
  have hrun (start : Engine) (hstart : start.Cleared) : (start.afterAll primitives).Cleared := by
    induction primitives generalizing start with
    | nil => exact hstart
    | cons primitive rest ih => exact ih _ (cleared_after hstart primitive)
  exact hrun _ fun hlost ↦ absurd rfl hlost

/-! ### Stranded engines -/

namespace Engine

/-- The device is lost with the notice, and no read-back is under way. -/
structure Stranded (notice : LossNotice) (engine : Engine) : Prop where
  lost : engine.lost = some notice
  pending : engine.pending = []
  idle : ∀ buffer readBack, (engine.array buffer).loading ≠ .copying readBack

/-- Nothing more is asked of a lost device. -/
def Terminal (before after : Engine) : Prop :=
  ∀ notice, before.Stranded notice →
    after.Stranded notice ∧ after.device.calls = before.device.calls ∧ after.serial = before.serial

theorem Terminal.refl (engine : Engine) : Terminal engine engine := fun _ h ↦ ⟨h, rfl, rfl⟩

instance : Std.Refl Terminal := ⟨Terminal.refl⟩

instance : IsTrans Engine Terminal := ⟨fun _ _ _ hfirst hlast notice h ↦ by
  obtain ⟨hmiddle, hcalls, hserial⟩ := hfirst notice h
  obtain ⟨hafter, hcalls', hserial'⟩ := hlast notice hmiddle
  exact ⟨hafter, hcalls'.trans hcalls, hserial'.trans hserial⟩⟩

theorem idle_setArray {engine : Engine} {buffer : Nat} {array : ArrayState}
    (h : ∀ other readBack, (engine.array other).loading ≠ .copying readBack)
    (harray : ∀ readBack, array.loading ≠ .copying readBack) (other : Nat) (readBack : ReadBack) :
    ((engine.setArray buffer array).array other).loading ≠ .copying readBack := by
  have hother := h other readBack
  unfold Engine.array at hother ⊢
  rw [lookup_setArray]
  cases hlookup : engine.arrays.lookup other with
  | none => exact nofun
  | some old =>
    rw [hlookup] at hother
    rw [Option.map_some, Option.getD_some]
    split
    · exact harray readBack
    · exact hother

/-- Changes of an array that put no read-back under way. -/
theorem terminal_setArray {engine : Engine} {buffer : Nat} {array : ArrayState}
    (harray : (∀ readBack, (engine.array buffer).loading ≠ .copying readBack) →
      ∀ readBack, array.loading ≠ .copying readBack) :
    Terminal engine (engine.setArray buffer array) := fun _ h ↦
  ⟨⟨h.lost, h.pending, idle_setArray h.idle (harray (h.idle buffer))⟩, rfl, rfl⟩

theorem terminal_retire (serial : Int) (engine : Engine) :
    Terminal engine (engine.retire serial) := by
  intro notice h
  have hsame : engine.retire serial = engine := by
    obtain ⟨device, options, lost, count, pending⟩ := engine
    obtain rfl : pending = [] := h.pending
    rfl
  rw [hsame]
  exact ⟨h, rfl, rfl⟩

theorem terminal_release (buffer : Nat) (engine : Engine) :
    Terminal engine (engine.release buffer) := by
  intro notice h
  have hset : Terminal engine
      (engine.setArray buffer { engine.array buffer with released := true }) :=
    terminal_setArray id
  obtain ⟨-, hsame⟩ | ⟨-, pending, hmarked, hpending⟩ := release_cases buffer engine
  · rw [hsame]
    exact ⟨h, rfl, rfl⟩
  · obtain ⟨-, rfl⟩ | ⟨hactive, -⟩ := hpending
    · rw [hmarked]
      exact hset notice h
    · rw [h.lost] at hactive
      cases hactive

theorem terminal_collect (arrays generators : List Nat) (engine : Engine) :
    Terminal engine (engine.collect arrays generators) := by
  refine collect_of (fun _ _ _ h ↦ ⟨⟨h.lost, h.pending, h.idle⟩, rfl, rfl⟩) terminal_release
    (fun keep engine notice h ↦ ⟨⟨h.lost, h.pending, fun buffer readBack ↦ ?_⟩, rfl, rfl⟩)
    arrays generators engine
  have hidle := h.idle buffer readBack
  unfold Engine.array at hidle ⊢
  cases hlookup : (engine.arrays.filter fun entry ↦ keep entry.1).lookup buffer with
  | none => exact nofun
  | some array => rwa [lookup_of_lookup_filter hlookup] at hidle

end Engine

/-! ### Actions -/

variable {α : Type} {buffer : Nat}

theorem Moves.refused (f : PUnit → Action α) : Moves Terminal (Action.assertActive >>= f) := by
  intro engine notice h
  rw [(refused_of_lost h.lost f).2]
  exact ⟨h, rfl, rfl⟩

theorem terminal_changeDevice {change : Device → Device}
    (h : ∀ device, (change device).calls = device.calls) :
    Moves Terminal (Action.changeDevice change) :=
  fun _ _ hstranded ↦ ⟨⟨hstranded.lost, hstranded.pending, hstranded.idle⟩, h _, rfl⟩

theorem terminal_updateArray {update : ArrayState → Except Failure ArrayState}
    (h : ∀ array updated, update array = .ok updated → updated.loading = array.loading) :
    Moves Terminal (Action.updateArray buffer update) := by
  intro engine
  rcases updateArray_cases engine buffer update with
    ⟨_, -, -, hstate⟩ | ⟨updated, hupdated, -, hstate⟩
  · rw [hstate]
    exact .refl engine
  · rw [hstate]
    exact terminal_setArray fun hidle ↦ by rwa [h _ _ hupdated]

theorem copyToStaging_of_lost {engine : Engine} {notice : LossNotice}
    (h : engine.lost = some notice) (buffer : Nat) :
    outcomeOf (Action.copyToStaging buffer) engine = .error notice.failure ∧
      stateAfter (Action.copyToStaging buffer) engine = engine :=
  refused_of_lost h _

theorem terminal_loadBlocking (buffer : Nat) : Moves Terminal (Action.loadBlocking buffer) := by
  refine .bind (.array buffer) fun array ↦ ?_
  split
  · exact .pure _
  · intro engine notice h
    obtain ⟨houtcome, hstate⟩ := copyToStaging_of_lost h.lost buffer
    rw [stateAfter_bind, houtcome, hstate]
    exact ⟨h, rfl, rfl⟩

theorem terminal_loadThenUpdate {update : ArrayState → Except Failure ArrayState}
    (hstores : ∀ array : ArrayState, array.StoresBy update) :
    Moves Terminal (loadThenUpdate buffer update) := by
  have hupdate : Moves Terminal (Action.updateArray buffer update) := by
    refine terminal_updateArray fun array updated hupdated ↦ ?_
    obtain ⟨storage, -, rfl⟩ := (hstores array).eq_ok hupdated
    rfl
  refine .bind (.array buffer) fun array ↦ ?_
  split
  · exact .bind (terminal_loadBlocking buffer) fun _ ↦ hupdate
  · exact hupdate

theorem terminal_reshape (buffer : Nat) (extents : List Value) :
    Moves Terminal (Action.reshape buffer extents) := by
  refine terminal_updateArray fun array updated hupdated ↦ ?_
  obtain ⟨shape, strides, -, rfl⟩ := ArrayState.reshape_eq_ok hupdated
  rfl

theorem terminal_send (buffer : Nat) : Moves Terminal (Action.send buffer) := by
  refine .bind (.array buffer) fun array ↦ ?_
  split
  · exact .pure _
  · exact .refused _

theorem terminal_requestLoad (buffer : Nat) : Moves Terminal (Action.requestLoad buffer) := by
  refine .bind (.array buffer) fun array ↦ ?_
  split
  · exact fun engine ↦ terminal_setArray fun _ _ ↦ nofun
  · exact .pure _

/-- A scheduled load cannot start, and is no longer under way. -/
theorem startLoad_of_lost {engine : Engine} {notice : LossNotice} (h : engine.lost = some notice)
    (hloading : (engine.array buffer).loading = .scheduled) :
    outcomeOf (Action.startLoad buffer) engine = .error notice.failure ∧
      stateAfter (Action.startLoad buffer) engine =
        engine.setArray buffer { engine.array buffer with loading := .idle } := by
  set idle := engine.setArray buffer { engine.array buffer with loading := .idle } with hidle
  have hlost : idle.lost = some notice := h
  obtain ⟨houtcome, hstate⟩ := copyToStaging_of_lost hlost buffer
  simp only [Action.startLoad, Action.setLoading, outcomeOf_bind, stateAfter_bind,
    outcomeOf_array, stateAfter_array, hloading, outcomeOf_changeArray, stateAfter_changeArray,
    ← hidle, houtcome, hstate, and_self]

theorem terminal_startLoad (buffer : Nat) : Moves Terminal (Action.startLoad buffer) := by
  intro engine notice h
  by_cases hloading : (engine.array buffer).loading = .scheduled
  · have hidle : Terminal engine
        (engine.setArray buffer { engine.array buffer with loading := .idle }) :=
      terminal_setArray fun _ _ ↦ nofun
    rw [(startLoad_of_lost h.lost hloading).2]
    exact hidle notice h
  · rw [(startLoad_of_not_scheduled hloading).1]
    exact ⟨h, rfl, rfl⟩

theorem terminal_finishLoad (buffer : Nat) : Moves Terminal (Action.finishLoad buffer) := by
  intro engine notice h
  rw [(finishLoad_of_not_copying (h.idle buffer)).1]
  exact ⟨h, rfl, rfl⟩

theorem terminal_markLost (arguments : List Value) :
    Moves Terminal (Action.markLost arguments) := by
  refine .bind (.ofExcept _) fun values ↦ fun engine notice h ↦ ?_
  have hlost : engine.isLost = true := by rw [isLost, h.lost, Option.isSome_some]
  rw [stateAfter_bind_of_ok (outcomeOf_get engine), stateAfter_get, if_pos hlost]
  exact ⟨h, rfl, rfl⟩

theorem terminal_destroy : Moves Terminal Action.destroy := by
  intro engine notice h
  rcases destroy_cases engine with hsame | ⟨hactive, -⟩
  · rw [hsame]
    exact ⟨h, rfl, rfl⟩
  · cases h.lost.symm.trans hactive

/-! ### Primitives and steps -/

/-- Whatever is done to an engine that has lost its device, the device is not called. -/
theorem terminal_after {primitive : Primitive} (h : primitive.KeepsTrace) (engine : Engine) :
    Terminal engine (engine.after primitive) := by
  cases primitive with
  | allocate element shape strides customStrides count =>
    rw [after_allocate]
    exact Moves.bind (.ofExcept _) (fun _ ↦ .refused _) engine
  | stridesBuffer strides =>
    rw [after_stridesBuffer]
    exact Moves.bind (.ofExcept _) (fun _ ↦ .refused _) engine
  | submit dispatches helpers copies =>
    rw [after_submit]
    exact Moves.refused _ engine
  | setValue buffer value index =>
    exact terminal_loadThenUpdate (fun array ↦ array.storesBy_setValue index value) engine
  | setElements buffer values =>
    exact terminal_loadThenUpdate (fun array ↦ array.storesBy_setAll values) engine
  | reshape buffer extents => exact terminal_reshape buffer extents engine
  | send buffer => exact terminal_send buffer engine
  | loadBlocking buffer => exact terminal_loadBlocking buffer engine
  | load buffer =>
    exact Moves.bind (terminal_requestLoad buffer) (fun _ ↦ .bind (terminal_startLoad buffer)
      fun _ ↦ terminal_finishLoad buffer) engine
  | createLayout modes =>
    rw [after_createLayout]
    exact Moves.refused _ engine
  | createModule source =>
    rw [after_createModule]
    exact Moves.refused _ engine
  | createPipeline source modes constants =>
    rw [after_createPipeline]
    intro notice h
    have hrefused : outcomeOf (Action.createLayout modes) engine = .error notice.failure ∧
        stateAfter (Action.createLayout modes) engine = engine := refused_of_lost h.lost _
    rw [Action.createPipeline, stateAfter_bind, hrefused.1, hrefused.2]
    exact ⟨h, rfl, rfl⟩
  | release buffer => exact terminal_release buffer engine
  | collect arrays generators => exact terminal_collect arrays generators engine
  | setGenerator state generator => exact fun _ h ↦ ⟨⟨h.lost, h.pending, h.idle⟩, rfl, rfl⟩
  | addGenerator state generator => exact fun _ h ↦ ⟨⟨h.lost, h.pending, h.idle⟩, rfl, rfl⟩
  | synchronize blocking => exact Moves.refused _ engine
  | retire serial => exact terminal_retire serial engine
  | markLost arguments => exact terminal_markLost arguments engine
  | destroy => exact terminal_destroy engine
  | setCompiler compiler =>
    have hset : Moves Terminal (Action.changeDevice fun device ↦ { device with compiler }) :=
      terminal_changeDevice fun _ ↦ rfl
    exact hset engine
  | requestLoad buffer => exact terminal_requestLoad buffer engine
  | startLoad buffer =>
    rw [after_startLoad]
    exact terminal_startLoad buffer engine
  | finishLoad buffer => exact terminal_finishLoad buffer engine
  | markDeviceDirty buffer => exact terminal_setArray id
  | poke buffer start bytes =>
    exact terminal_changeDevice (fun device ↦ Device.calls_setBytes _ _ _) engine
  | replaceCalls calls => exact h.elim

theorem terminal_of_leads {first last : Engine} (h : Leads Primitive.KeepsTrace first last) :
    Terminal first last := by
  obtain ⟨primitives, hkeeps, rfl⟩ := h
  induction primitives generalizing first with
  | nil => exact .refl first
  | cons primitive rest ih =>
    exact trans_of Terminal (terminal_after (hkeeps primitive List.mem_cons_self) first)
      (ih fun later hmem ↦ hkeeps later (List.mem_cons_of_mem primitive hmem))

end ComputeArray
