import ComputeArray.Engine.Access
import ComputeArray.Proofs.Run.Fixture

/-!
# Setups of an engine

The options of an engine, the limits of its device and the way the device computes are there from
the start. Arrays may come and go, loads and submissions may happen: the setup stays the same.
-/

set_option autoImplicit false

namespace ComputeArray

open Engine

namespace Engine

/-- The options of an engine, the limits of its device and the way the device computes. -/
def setup (engine : Engine) := (engine.options, engine.device.fixture)

def SameSetup (before after : Engine) : Prop := after.setup = before.setup

instance : Std.Refl SameSetup := ⟨fun _ ↦ rfl⟩

instance : IsTrans Engine SameSetup := ⟨fun _ _ _ hfirst hlast ↦ Eq.trans hlast hfirst⟩

variable {before after : Engine}

theorem SameSetup.workgroupSize (h : SameSetup before after) :
    after.workgroupSize = before.workgroupSize := by
  simp only [SameSetup, setup, Device.fixture, Prod.mk.injEq] at h
  rw [Engine.workgroupSize, Engine.workgroupSize, h.1, h.2.1]

theorem SameSetup.maxWorkgroups (h : SameSetup before after) :
    after.maxWorkgroups = before.maxWorkgroups := by
  simp only [SameSetup, setup, Device.fixture, Prod.mk.injEq] at h
  rw [Engine.maxWorkgroups, Engine.maxWorkgroups, h.2.1]

theorem SameSetup.computing (h : SameSetup before after) :
    after.device.computing = before.device.computing := by
  simp only [SameSetup, setup, Device.fixture, Prod.mk.injEq] at h
  exact h.2.2

theorem SameFixture.sameSetup (h : SameFixture before after) : SameSetup before after := by
  simp only [SameFixture, fixture, Prod.mk.injEq] at h
  simp only [SameSetup, setup, Device.fixture, h]

end Engine

/-! ### Arrays -/

theorem sameSetup_allocate (element : ElementType) (shape strides : List Nat)
    (customStrides : Bool) (count : Int) :
    Moves SameSetup (Action.allocate element shape strides customStrides count) :=
  .bind (.ofExcept _) fun _ ↦ .bind .assertActive fun _ ↦ .bind (fun _ ↦ rfl) fun _ ↦
    .bind (.update fun _ ↦ rfl) fun _ ↦ .pure _

theorem sameSetup_release (buffer : Nat) (engine : Engine) :
    SameSetup engine (engine.release buffer) :=
  (sameFixture_release buffer engine).sameSetup

theorem sameSetup_submit (dispatches : List Dispatch) (helpers : List Nat)
    (copies : List (Nat × Nat)) : Moves SameSetup (Action.submit dispatches helpers copies) :=
  (sameFixture_submit dispatches helpers copies).mono fun _ _ ↦ SameFixture.sameSetup

/-! ### Loads -/

namespace Moves

section Load

variable {R : Engine → Engine → Prop} [Std.Refl R] [IsTrans Engine R]
  (hchange : ∀ buffer change, Moves R (Action.changeArray buffer change))
  (hcreate : ∀ size usage, Moves R (Action.onDevice (Device.createBuffer size usage)))
  (hencoder : Moves R (Action.changeDevice Device.createEncoder))
  (hrecord : ∀ call : Device → Call,
    Moves R (Action.changeDevice fun device ↦ device.record (call device)))
  (hsubmit : ∀ commands, Moves R (Action.submitCommands commands))
  (hretire : ∀ serial, Moves R (modify (Engine.retire serial)))
include hchange hcreate hencoder hrecord hsubmit hretire

/-- A load copies the buffer into a staging buffer, and takes that back when it has been mapped. -/
theorem loadBlocking (buffer : Nat) : Moves R (Action.loadBlocking buffer) := by
  refine .bind (.array buffer) fun _ ↦ ?_
  split
  · exact .pure _
  · refine .bind (.bind .assertActive fun _ ↦ .bind (.array buffer) fun _ ↦ .bind .get fun _ ↦
      .bind (hcreate _ _) fun _ ↦ .bind hencoder fun _ ↦ .bind (hsubmit _) fun _ ↦ .pure _)
        fun readBack ↦ .bind (hrecord _) fun _ ↦ ?_
    exact .bind .get fun _ ↦ .bind (hchange _ _) fun _ ↦
      .bind (hrecord fun _ ↦ .unmap readBack.staging) fun _ ↦
        .bind (hrecord fun _ ↦ .destroyBuffer readBack.staging) fun _ ↦
          .bind (hretire _) fun _ ↦ hchange _ _

theorem loadThenUpdate (buffer : Nat) (update : ArrayState → Except Failure ArrayState) :
    Moves R (do
      if (← Action.array buffer).deviceDirty then Action.loadBlocking buffer
      Action.updateArray buffer update) := by
  have hupdate : Moves R (Action.updateArray buffer update) :=
    .bind (.array buffer) fun _ ↦ .bind (.ofExcept _) fun _ ↦ hchange _ _
  refine .bind (.array buffer) fun _ ↦ ?_
  split
  · exact .bind (loadBlocking hchange hcreate hencoder hrecord hsubmit hretire buffer)
      fun _ ↦ hupdate
  · exact hupdate

end Load

end Moves

theorem sameSetup_createEncoder : Moves SameSetup (Action.changeDevice Device.createEncoder) :=
  fun _ ↦ rfl

theorem sameSetup_loadThenUpdate (buffer : Nat)
    (update : ArrayState → Except Failure ArrayState) :
    Moves SameSetup (do
      if (← Action.array buffer).deviceDirty then Action.loadBlocking buffer
      Action.updateArray buffer update) :=
  .loadThenUpdate (fun _ _ _ ↦ rfl) (fun _ _ _ ↦ rfl) sameSetup_createEncoder (fun _ _ ↦ rfl)
    (fun commands engine ↦
      congrArg (Prod.mk engine.options) (Device.fixture_submit engine.device commands))
    (fun serial engine ↦ (sameFixture_retire serial engine).sameSetup) _ _

end ComputeArray
