import ComputeArray.Proofs.Lifetime.Orderly

/-!
# Draining

Only submissions and releases put buffers into the queue of an engine. All else leaves the queue as
it is or takes buffers from its front, and no serial ever falls (`drains_after`). The queue is given
up when the device is lost, and nothing joins it after that.
-/

set_option autoImplicit false

namespace ComputeArray

namespace Engine

/-- No serial is taken back, the queue has lost entries at its front
only, and a loss leaves none. -/
structure Drains (before after : Engine) : Prop where
  serial : before.serial ≤ after.serial
  pending : after.pending <:+ before.pending
  lost : after.lost = before.lost ∨ after.pending = []

namespace Drains

variable {first middle last : Engine}

theorem refl (engine : Engine) : Drains engine engine :=
  ⟨Nat.le_refl _, List.suffix_rfl, .inl rfl⟩

theorem trans (hfirst : Drains first middle) (hlast : Drains middle last) : Drains first last where
  serial := Nat.le_trans hfirst.serial hlast.serial
  pending := hlast.pending.trans hfirst.pending
  lost := by
    rcases hlast.lost with hsame | hempty
    · rcases hfirst.lost with hsame' | hempty
      · exact .inl (hsame.trans hsame')
      · exact .inr (List.suffix_nil.mp (hempty ▸ hlast.pending))
    · exact .inr hempty

/-- A change that leaves the queue. -/
theorem of_pending (hserial : first.serial ≤ last.serial) (hpending : last.pending = first.pending)
    (hlost : last.lost = first.lost) : Drains first last :=
  ⟨hserial, hpending ▸ List.suffix_rfl, .inl hlost⟩

theorem of_compiles (h : Compiles first last) : Drains first last :=
  of_pending (Nat.le_of_eq h.serial.symm) h.pending (congrArg (·.2.1) h.rest)

theorem length_le (h : Drains first last) : last.pending.length ≤ first.pending.length :=
  h.pending.length_le

end Drains

instance : Std.Refl Drains := ⟨Drains.refl⟩

instance : IsTrans Engine Drains := ⟨fun _ _ _ ↦ Drains.trans⟩

theorem drains_retire (serial : Int) (engine : Engine) : Drains engine (engine.retire serial) where
  serial := Nat.le_refl _
  pending := List.dropWhile_suffix _
  lost := .inl rfl

theorem drains_markLost (wanted : Bool) (reason message : Value) (engine : Engine) :
    Drains engine (engine.markLost wanted reason message) := by
  rcases markLost_cases wanted reason message engine with ⟨-, hsame⟩ | ⟨-, log, hmarked⟩
  · rw [hsame]
    exact .refl engine
  · rw [hmarked]
    exact ⟨Nat.le_refl _, List.nil_suffix, .inr rfl⟩

end Engine

open Engine

variable (buffer : Nat)

/-! ### Actions that take buffers from the queue -/

theorem drains_onDevice {α : Type} (act : Device → α × Device) :
    Moves Drains (Action.onDevice act) :=
  fun _ ↦ .of_pending (Nat.le_refl _) rfl rfl

theorem drains_changeDevice (change : Device → Device) :
    Moves Drains (Action.changeDevice change) :=
  fun _ ↦ .of_pending (Nat.le_refl _) rfl rfl

theorem drains_changeArray (change : ArrayState → ArrayState) :
    Moves Drains (Action.changeArray buffer change) :=
  fun _ ↦ .of_pending (Nat.le_refl _) rfl rfl

theorem drains_updateArray (update : ArrayState → Except Failure ArrayState) :
    Moves Drains (Action.updateArray buffer update) :=
  .bind (.array buffer) fun _ ↦ .bind (.ofExcept _) fun _ ↦ drains_changeArray buffer _

theorem drains_submitCommands (commands : List Command) :
    Moves Drains (Action.submitCommands commands) :=
  fun _ ↦ .of_pending (Nat.le_succ _) rfl rfl

theorem drains_allocate (element : ElementType) (shape strides : List Nat) (customStrides : Bool)
    (count : Int) : Moves Drains (Action.allocate element shape strides customStrides count) :=
  .bind (.ofExcept _) fun _ ↦ .bind .assertActive fun _ ↦ .bind (drains_onDevice _) fun _ ↦
    .bind (.update fun _ ↦ .of_pending (Nat.le_refl _) rfl rfl) fun _ ↦ .pure _

theorem drains_stridesBuffer (strides : List Int) : Moves Drains (Action.stridesBuffer strides) :=
  .bind (.ofExcept _) fun _ ↦ .bind .assertActive fun _ ↦ drains_onDevice _

theorem drains_send : Moves Drains (Action.send buffer) := by
  refine .bind (.array buffer) fun array ↦ ?_
  split
  · exact .pure _
  · exact .bind .assertActive fun _ ↦ .bind (drains_changeDevice _) fun _ ↦
      drains_changeArray buffer _

theorem drains_copyToStaging : Moves Drains (Action.copyToStaging buffer) :=
  .bind .assertActive fun _ ↦ .bind (.array buffer) fun _ ↦ .bind .get fun _ ↦
    .bind (drains_onDevice _) fun _ ↦ .bind (drains_changeDevice _) fun _ ↦
      .bind (drains_submitCommands _) fun _ ↦ .pure _

theorem drains_finishReadBack (readBack : ReadBack) :
    Moves Drains (Action.finishReadBack buffer readBack) := by
  refine .bind .get fun _ ↦ .bind (drains_changeArray buffer _) fun _ ↦ ?_
  refine .bind (drains_changeDevice _) fun _ ↦ .bind (drains_changeDevice _) fun _ ↦ ?_
  exact .bind (.update (drains_retire _)) fun _ ↦ drains_changeArray buffer _

theorem drains_loadBlocking : Moves Drains (Action.loadBlocking buffer) := by
  refine .bind (.array buffer) fun array ↦ ?_
  split
  · exact .pure _
  · exact .bind (drains_copyToStaging buffer) fun readBack ↦
      .bind (drains_changeDevice _) fun _ ↦ drains_finishReadBack buffer readBack

theorem drains_requestLoad : Moves Drains (Action.requestLoad buffer) := by
  refine .bind (.array buffer) fun array ↦ ?_
  split
  · exact drains_changeArray buffer _
  · exact .pure _

theorem drains_startLoad : Moves Drains (Action.startLoad buffer) := by
  refine .bind (.array buffer) fun array ↦ ?_
  split
  · refine .bind (drains_changeArray buffer _) fun _ ↦
      .bind (drains_copyToStaging buffer) fun _ ↦ ?_
    exact .bind (drains_changeDevice _) fun _ ↦ .bind (drains_changeArray buffer _) fun _ ↦ .pure _
  · exact .pure _

theorem drains_finishLoad : Moves Drains (Action.finishLoad buffer) := by
  refine .bind (.array buffer) fun array ↦ ?_
  split
  · next readBack _ =>
    exact .bind (drains_changeArray buffer _) fun _ ↦ drains_finishReadBack buffer readBack
  · exact .pure _

theorem drains_load : Moves Drains (Action.load buffer) :=
  .bind (drains_requestLoad buffer) fun _ ↦ .bind (drains_startLoad buffer) fun _ ↦
    drains_finishLoad buffer

theorem drains_loadThenUpdate (update : ArrayState → Except Failure ArrayState) :
    Moves Drains (loadThenUpdate buffer update) := by
  refine .bind (.array buffer) fun array ↦ ?_
  split
  · exact .bind (drains_loadBlocking buffer) fun _ ↦ drains_updateArray buffer update
  · exact drains_updateArray buffer update

theorem drains_synchronize (blocking : Bool) : Moves Drains (Action.synchronize blocking) :=
  .bind .assertActive fun _ ↦ .bind .get fun _ ↦ .bind (drains_changeDevice _) fun _ ↦
    .update (drains_retire _)

theorem drains_markLostAction (arguments : List Value) :
    Moves Drains (Action.markLost arguments) :=
  .markLost drains_markLost arguments

theorem drains_destroy : Moves Drains Action.destroy :=
  .destroy drains_markLost fun _ ↦ .of_pending (Nat.le_refl _) rfl rfl

/-! ### Submissions before they settle -/

theorem drains_prepare (dispatches : List Dispatch) (copies : List (Nat × Nat)) :
    Moves Drains (Action.prepare dispatches copies) :=
  .prepare drains_send (drains_changeDevice _)
    (fun dispatch ↦ (compiles_encode dispatch).mono fun _ _ ↦ .of_compiles) _ _

/-- A submission takes the next serial. -/
theorem drains_handOver (dispatches : List Dispatch) (copies : List (Nat × Nat))
    (commands : List Command) : Moves Drains (Action.handOver dispatches copies commands) := by
  have hmark (buffer : Nat) : Moves Drains (Action.markDeviceDirty buffer) :=
    drains_changeArray buffer _
  exact .bind (.forM _ fun buffer _ ↦ hmark buffer) fun _ ↦
    .bind (.forM _ fun buffer _ ↦ hmark buffer) fun _ ↦ drains_submitCommands commands

/-! ### All primitives -/

namespace Primitive

/-- Whether the primitive may put buffers into the queue. -/
def Enqueues : Primitive → Prop
  | submit .. => True
  | release _ => True
  | collect .. => True
  | _ => False

end Primitive

/-- All other primitives only take buffers from the front of the queue. -/
theorem drains_after {primitive : Primitive} (h : ¬ primitive.Enqueues) (engine : Engine) :
    Drains engine (engine.after primitive) := by
  cases primitive with
  | allocate element shape strides customStrides count =>
    rw [after_allocate]
    exact drains_allocate _ _ _ _ _ engine
  | stridesBuffer strides =>
    rw [after_stridesBuffer]
    exact drains_stridesBuffer strides engine
  | submit dispatches helpers copies => exact absurd trivial h
  | setValue buffer value index =>
    exact drains_loadThenUpdate buffer (·.setValue index value) engine
  | setElements buffer values => exact drains_loadThenUpdate buffer (·.setAll values) engine
  | reshape buffer extents => exact drains_updateArray buffer _ engine
  | send buffer => exact drains_send buffer engine
  | loadBlocking buffer => exact drains_loadBlocking buffer engine
  | load buffer => exact drains_load buffer engine
  | createLayout modes =>
    rw [after_createLayout]
    exact .of_compiles (compiles_createLayout modes engine)
  | createModule source =>
    rw [after_createModule]
    exact .of_compiles (compiles_createModule source engine)
  | createPipeline source modes constants =>
    rw [after_createPipeline]
    exact .of_compiles (compiles_createPipeline source modes constants engine)
  | release buffer => exact absurd trivial h
  | collect arrays generators => exact absurd trivial h
  | setGenerator state generator => exact .of_pending (Nat.le_refl _) rfl rfl
  | addGenerator state generator => exact .of_pending (Nat.le_refl _) rfl rfl
  | synchronize blocking => exact drains_synchronize blocking engine
  | retire serial => exact drains_retire serial engine
  | markLost arguments => exact drains_markLostAction arguments engine
  | destroy => exact drains_destroy engine
  | setCompiler compiler => exact drains_changeDevice _ engine
  | requestLoad buffer => exact drains_requestLoad buffer engine
  | startLoad buffer =>
    rw [after_startLoad]
    exact drains_startLoad buffer engine
  | finishLoad buffer => exact drains_finishLoad buffer engine
  | markDeviceDirty buffer => exact drains_changeArray buffer _ engine
  | poke buffer start bytes => exact drains_changeDevice _ engine
  | replaceCalls calls => exact drains_changeDevice _ engine

end ComputeArray
