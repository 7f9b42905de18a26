import ComputeArray.Engine.Lifetime
import ComputeArray.Engine.Submit
import ComputeArray.Proofs.Run.Outcome

/-!
# Elementary actions

What the actions all others are written with give, and the states they leave.
-/

set_option autoImplicit false

namespace ComputeArray

variable {α : Type}

@[simp] theorem outcomeOf_onDevice (act : Device → α × Device) (engine : Engine) :
    outcomeOf (Action.onDevice act) engine = .ok (act engine.device).1 :=
  rfl

@[simp] theorem stateAfter_onDevice (act : Device → α × Device) (engine : Engine) :
    stateAfter (Action.onDevice act) engine = { engine with device := (act engine.device).2 } :=
  rfl

@[simp] theorem outcomeOf_changeDevice (change : Device → Device) (engine : Engine) :
    outcomeOf (Action.changeDevice change) engine = .ok ⟨⟩ :=
  rfl

@[simp] theorem stateAfter_changeDevice (change : Device → Device) (engine : Engine) :
    stateAfter (Action.changeDevice change) engine =
      { engine with device := change engine.device } :=
  rfl

@[simp] theorem outcomeOf_array (buffer : Nat) (engine : Engine) :
    outcomeOf (Action.array buffer) engine = .ok (engine.array buffer) :=
  rfl

@[simp] theorem stateAfter_array (buffer : Nat) (engine : Engine) :
    stateAfter (Action.array buffer) engine = engine :=
  rfl

@[simp] theorem outcomeOf_changeArray (buffer : Nat) (change : ArrayState → ArrayState)
    (engine : Engine) : outcomeOf (Action.changeArray buffer change) engine = .ok ⟨⟩ :=
  rfl

@[simp] theorem stateAfter_changeArray (buffer : Nat) (change : ArrayState → ArrayState)
    (engine : Engine) :
    stateAfter (Action.changeArray buffer change) engine =
      engine.setArray buffer (change (engine.array buffer)) :=
  rfl

@[simp] theorem outcomeOf_actionOfExcept (result : Except Failure α) (engine : Engine) :
    outcomeOf (Action.ofExcept result) engine = result :=
  outcomeOf_ofExcept result engine

@[simp] theorem stateAfter_actionOfExcept (result : Except Failure α) (engine : Engine) :
    stateAfter (Action.ofExcept result) engine = engine :=
  stateAfter_ofExcept result engine

@[simp] theorem stateAfter_assertActive (engine : Engine) :
    stateAfter Action.assertActive engine = engine := by
  simp only [Action.assertActive, stateAfter_bind, outcomeOf_get, stateAfter_get]
  cases engine.lost <;> rfl

/-- An active engine passes the check for the loss of its device. -/
theorem outcomeOf_assertActive {engine : Engine} (h : engine.lost = none) :
    outcomeOf Action.assertActive engine = .ok ⟨⟩ := by
  simp only [Action.assertActive, outcomeOf_bind, outcomeOf_get, stateAfter_get, h, outcomeOf_pure]

/-- The check for the loss of the device passes on an active engine only. -/
theorem lost_of_outcomeOf_assertActive {engine : Engine} {done : PUnit}
    (h : outcomeOf Action.assertActive engine = .ok done) : engine.lost = none := by
  cases hlost : engine.lost with
  | none => rfl
  | some notice =>
    simp only [Action.assertActive, outcomeOf_bind, outcomeOf_get, stateAfter_get, hlost,
      outcomeOf_throw, reduceCtorEq] at h

@[simp] theorem stateAfter_grid (lanes : Int) (engine : Engine) :
    stateAfter (Action.grid lanes) engine = engine := by
  simp only [Action.grid, stateAfter_bind, outcomeOf_get, stateAfter_get]
  split <;> rfl

/-! ### Releases -/

namespace Engine

/-- A release leaves an array alone that has been released before. It marks any other one, and the
buffer joins the queue unless the device is lost. -/
theorem release_cases (buffer : Nat) (engine : Engine) :
    (engine.array buffer).released = true ∧ engine.release buffer = engine ∨
      (engine.array buffer).released = false ∧ ∃ pending,
        engine.release buffer =
          { engine.setArray buffer { engine.array buffer with released := true } with pending } ∧
        (engine.lost ≠ none ∧ pending = engine.pending ∨
          engine.lost = none ∧ pending = engine.pending ++ [(engine.serial, buffer)]) := by
  cases hreleased : (engine.array buffer).released with
  | true => exact .inl ⟨rfl, if_pos hreleased⟩
  | false =>
    set marked := engine.setArray buffer { engine.array buffer with released := true }
    have hmarked : engine.release buffer = marked.deferRelease buffer :=
      if_neg (by rw [hreleased]; exact Bool.false_ne_true)
    have hlost : marked.isLost = engine.lost.isSome := rfl
    refine .inr ⟨rfl, ?_⟩
    cases hnotice : engine.lost with
    | none =>
      rw [hnotice] at hlost
      exact ⟨_, hmarked.trans (if_neg (by rw [hlost]; exact Bool.false_ne_true)), .inr ⟨rfl, rfl⟩⟩
    | some notice =>
      rw [hnotice] at hlost
      exact ⟨engine.pending, hmarked.trans (if_pos hlost), .inl ⟨nofun, rfl⟩⟩

/-- Releases in a row are followed step by step. -/
theorem foldl_release {R : Engine → Engine → Prop} [Std.Refl R] [IsTrans Engine R]
    (hrelease : ∀ buffer engine, R engine (release buffer engine)) (buffers : List Nat)
    (engine : Engine) :
    R engine (buffers.foldl (fun engine buffer ↦ engine.release buffer) engine) := by
  induction buffers generalizing engine with
  | nil => exact refl_of R engine
  | cons buffer rest ih => exact trans_of R (hrelease buffer engine) (ih _)

/-- A collection forgets generators, releases arrays, and forgets them. -/
theorem collect_of {R : Engine → Engine → Prop} [Std.Refl R] [IsTrans Engine R]
    (hgenerators : ∀ states engine, R engine (keepGenerators states engine))
    (hrelease : ∀ buffer engine, R engine (release buffer engine))
    (hfilter : ∀ (keep : Nat → Bool) (engine : Engine),
      R engine { engine with arrays := engine.arrays.filter fun entry ↦ keep entry.1 })
    (arrays generators : List Nat) (engine : Engine) :
    R engine (engine.collect arrays generators) :=
  trans_of R (hgenerators generators engine)
    (trans_of R (foldl_release hrelease _ _) (hfilter (List.contains _) _))

theorem foldl_release_eq {β : Type} {f : Engine → β}
    (hrelease : ∀ buffer engine, f (release buffer engine) = f engine) (buffers : List Nat)
    (engine : Engine) :
    f (buffers.foldl (fun engine buffer ↦ engine.release buffer) engine) = f engine := by
  induction buffers generalizing engine with
  | nil => rfl
  | cons buffer rest ih => exact (ih _).trans (hrelease buffer engine)

end Engine

/-! ### Submissions -/

/-- A submission that is prepared has begun its encoding, and encoded its passes and then its
copies. -/
theorem prepare_eq_ok {dispatches : List Dispatch} {copies : List (Nat × Nat)}
    {commands : List Command} {engine : Engine}
    (h : outcomeOf (Action.prepare dispatches copies) engine = .ok commands) :
    ∃ passes moves begun encoded, commands = passes ++ moves ∧
      outcomeOf (Action.beginEncoding dispatches) engine = .ok ⟨⟩ ∧
      begun = stateAfter (Action.beginEncoding dispatches) engine ∧
      outcomeOf (dispatches.mapM Action.encode) begun = .ok passes ∧
      encoded = stateAfter (dispatches.mapM Action.encode) begun ∧
      outcomeOf (copies.mapM Action.encodeCopy) encoded = .ok moves ∧
      stateAfter (Action.prepare dispatches copies) engine =
        stateAfter (copies.mapM Action.encodeCopy) encoded := by
  simp only [Action.prepare, outcomeOf_bind_eq_ok, outcomeOf_pure, Except.ok.injEq] at h
  obtain ⟨⟨⟩, hbegun, passes, hpasses, moves, hmoves, rfl⟩ := h
  refine ⟨passes, moves, _, _, rfl, hbegun, rfl, hpasses, rfl, hmoves, ?_⟩
  simp only [Action.prepare, stateAfter_bind, hbegun, hpasses, hmoves, stateAfter_pure]

/-! ### Requests for loads -/

theorem Loading.isUnderWay_eq_false {loading : Loading} :
    loading.isUnderWay = false ↔ loading = .idle := by
  cases loading <;> simp [isUnderWay]

/-- A load is scheduled if the device has news and none is under way. -/
theorem requestLoad_cases (buffer : Nat) (engine : Engine) :
    outcomeOf (Action.requestLoad buffer) engine = .ok ⟨⟩ ∧
      (((engine.array buffer).deviceDirty = true → (engine.array buffer).loading ≠ .idle) ∧
          stateAfter (Action.requestLoad buffer) engine = engine ∨
        (engine.array buffer).deviceDirty = true ∧ (engine.array buffer).loading = .idle ∧
          stateAfter (Action.requestLoad buffer) engine =
            engine.setArray buffer { engine.array buffer with loading := .scheduled }) := by
  simp only [Action.requestLoad, Action.setLoading, outcomeOf_bind, stateAfter_bind,
    outcomeOf_array, stateAfter_array]
  split
  · next hneeded =>
    rw [Bool.not_eq_true', Loading.isUnderWay_eq_false] at hneeded
    exact ⟨rfl, .inr ⟨hneeded.1, hneeded.2, rfl⟩⟩
  · next hneeded =>
    rw [Bool.not_eq_true', Loading.isUnderWay_eq_false, not_and] at hneeded
    exact ⟨rfl, .inl ⟨hneeded, rfl⟩⟩

/-! ### Losses -/

theorem Device.destroy_eq_ok {device destroyed : Device} (h : device.destroy = .ok destroyed) :
    destroyed = device.record .destroyDevice := by
  unfold Device.destroy at h
  split at h
  · cases h
  · exact (Except.ok.inj h).symm

/-- The first loss is noted, and nothing is pending from then on. -/
theorem Engine.markLost_cases (wanted : Bool) (reason message : Value) (engine : Engine) :
    engine.lost ≠ none ∧ engine.markLost wanted reason message = engine ∨
      engine.lost = none ∧ ∃ log, engine.markLost wanted reason message =
        { engine with log, lost := some ⟨reason, message⟩, pending := [] } := by
  unfold Engine.markLost
  cases engine.lost with
  | some notice => exact .inl ⟨nofun, rfl⟩
  | none => cases wanted <;> exact .inr ⟨rfl, _, rfl⟩

/-- A device is destroyed by a call and lost with it, unless it is lost already or refuses. -/
theorem destroy_cases (engine : Engine) :
    stateAfter Action.destroy engine = engine ∨
      engine.lost = none ∧ stateAfter Action.destroy engine =
        Engine.markLost true (.text Engine.destroyedReason) (.text "device destroyed by destroy()")
          { engine with device := engine.device.record .destroyDevice } := by
  simp only [Action.destroy, stateAfter_bind, outcomeOf_get, stateAfter_get]
  split
  · exact .inl rfl
  · next hactive =>
    cases hdestroy : engine.device.destroy with
    | error message => exact .inl rfl
    | ok destroyed =>
      rw [Device.destroy_eq_ok hdestroy]
      refine .inr ⟨?_, rfl⟩
      simpa [Engine.isLost] using hactive

namespace Moves

variable {R : Engine → Engine → Prop}

section Losses

variable [Std.Refl R] [IsTrans Engine R] (hmark : ∀ wanted reason message engine,
  R engine (Engine.markLost wanted reason message engine))
include hmark

theorem markLost (arguments : List Value) : Moves R (Action.markLost arguments) := by
  refine .bind (.ofExcept _) fun values ↦ .bind .get fun engine ↦ ?_
  split
  · exact .pure _
  · exact .bind (.ofExcept _) fun wanted ↦ .update (hmark _ _ _)

theorem destroy (hrecord : ∀ engine : Engine,
    R engine { engine with device := engine.device.record .destroyDevice }) :
    Moves R Action.destroy := by
  intro engine
  rcases destroy_cases engine with hsame | ⟨-, hafter⟩
  · rw [hsame]
    exact refl_of R engine
  · rw [hafter]
    exact trans_of R (hrecord engine) (hmark _ _ _ _)

end Losses

theorem array [Std.Refl R] (buffer : Nat) : Moves R (Action.array buffer) :=
  silent (stateAfter_array buffer)

theorem assertActive [Std.Refl R] : Moves R Action.assertActive :=
  silent stateAfter_assertActive

theorem grid [Std.Refl R] (lanes : Int) : Moves R (Action.grid lanes) :=
  silent (stateAfter_grid lanes)

section Submission

variable [Std.Refl R] [IsTrans Engine R] (hsend : ∀ buffer, Moves R (Action.send buffer))
include hsend

theorem encodeCopy (copy : Nat × Nat) : Moves R (Action.encodeCopy copy) :=
  .bind (hsend _) fun _ ↦ .bind .get fun _ ↦ .pure _

variable (hencoder : Moves R (Action.changeDevice Device.createEncoder))
include hencoder

theorem beginEncoding (dispatches : List Dispatch) : Moves R (Action.beginEncoding dispatches) :=
  .bind (.forM _ fun buffer _ ↦ hsend buffer) fun _ ↦ hencoder

variable (hencode : ∀ dispatch, Moves R (Action.encode dispatch))
include hencode

/-- Preparing a submission sends arrays, and encodes passes and copies. -/
theorem prepare (dispatches : List Dispatch) (copies : List (Nat × Nat)) :
    Moves R (Action.prepare dispatches copies) :=
  .bind (beginEncoding hsend hencoder _) fun _ ↦
    .bind (.mapM _ fun dispatch _ ↦ hencode dispatch) fun _ ↦
      .bind (.mapM _ fun copy _ ↦ encodeCopy hsend copy) fun _ ↦ .pure _

/-- A submission that has been prepared marks arrays, hands its commands over and settles. -/
theorem submit (hmark : ∀ buffer, Moves R (Action.markDeviceDirty buffer))
    (hsubmit : ∀ commands, Moves R (Action.submitCommands commands))
    (hsettle : ∀ serial helpers, Moves R (Action.settle serial helpers))
    (dispatches : List Dispatch) (helpers : List Nat) (copies : List (Nat × Nat)) :
    Moves R (Action.submit dispatches helpers copies) :=
  .bind .assertActive fun _ ↦ .bind (prepare hsend hencoder hencode _ _) fun _ ↦
    .bind (.bind (.forM _ fun buffer _ ↦ hmark buffer) fun _ ↦
      .bind (.forM _ fun buffer _ ↦ hmark buffer) fun _ ↦ hsubmit _) fun serial ↦
        .bind (hsettle serial helpers) fun _ ↦ .pure _

end Submission

end Moves

end ComputeArray
