import ComputeArray.Proofs.Device.History
import ComputeArray.Proofs.Run.Elementary

/-!
# Compilations

Finding or making a layout, a module or a pipeline changes the caches, the log and the objects of
the device. All else stays as it is, and the device is asked for objects only.
-/

set_option autoImplicit false

namespace ComputeArray

namespace Engine

/-- What compilations leave as it is. -/
def uncompiled (engine : Engine) :=
  (engine.options, engine.lost, engine.serial, engine.pending, engine.arrays, engine.generators,
    engine.device.limits, engine.device.computing, engine.device.buffers)

structure Compiles (before after : Engine) : Prop where
  rest : after.uncompiled = before.uncompiled
  quiet : before.device.QuietUntil after.device

instance : Std.Refl Compiles := ⟨fun _ ↦ ⟨rfl, .of_eq rfl⟩⟩

instance : IsTrans Engine Compiles :=
  ⟨fun _ _ _ hfirst hlast ↦ ⟨hlast.rest.trans hfirst.rest, hfirst.quiet.trans hlast.quiet⟩⟩

namespace Compiles

variable {before after : Engine}

theorem arrays (h : Compiles before after) : after.arrays = before.arrays :=
  congrArg (·.2.2.2.2.1) h.rest

theorem generators (h : Compiles before after) : after.generators = before.generators :=
  congrArg (·.2.2.2.2.2.1) h.rest

theorem serial (h : Compiles before after) : after.serial = before.serial :=
  congrArg (·.2.2.1) h.rest

theorem pending (h : Compiles before after) : after.pending = before.pending :=
  congrArg (·.2.2.2.1) h.rest

theorem buffers (h : Compiles before after) : after.device.buffers = before.device.buffers :=
  congrArg (·.2.2.2.2.2.2.2.2) h.rest

end Compiles

end Engine

open Engine

theorem compiles_createLayout (modes : List Mode) :
    Moves Compiles (Action.createLayout modes) := by
  refine .bind .assertActive fun _ ↦ .bind .get fun engine ↦ ?_
  split
  · exact .pure _
  · exact .bind (fun _ ↦ ⟨rfl, .of_push rfl trivial⟩) fun _ ↦
      .bind (.update fun _ ↦ ⟨rfl, .of_eq rfl⟩) fun _ ↦ .pure _

theorem compiles_review (source : String) (messages : List (String × String)) :
    Moves Compiles (Action.review source messages) := by
  induction messages with
  | nil => exact .pure _
  | cons message rest ih =>
    unfold Action.review
    split
    · exact .bind (.throw _) fun _ ↦ .bind (.update fun _ ↦ ⟨rfl, .of_eq rfl⟩) fun _ ↦ ih
    · exact .bind (.update fun _ ↦ ⟨rfl, .of_eq rfl⟩) fun _ ↦ ih

theorem compiles_compile (source : String) :
    Moves Compiles (Action.onDevice (Device.compile source)) := by
  intro engine
  rw [stateAfter_onDevice]
  unfold Device.compile
  cases engine.device.compiler.answer source with
  | _ => exact ⟨rfl, .of_push rfl trivial⟩

theorem compiles_createModule (source : String) :
    Moves Compiles (Action.createModule source) := by
  refine .bind .assertActive fun _ ↦ .bind .get fun engine ↦ ?_
  split
  · exact .pure _
  · refine .bind (compiles_compile source) fun compiled ↦ ?_
    split
    · exact .throw _
    · exact .bind (compiles_review _ _) fun _ ↦ .bind (.update fun _ ↦ ⟨rfl, .of_eq rfl⟩)
        fun _ ↦ .pure _

theorem compiles_buildPipeline (source : String) (layout : Nat)
    (constants : List (String × Value)) :
    Moves Compiles (Action.buildPipeline source layout constants) :=
  .bind (compiles_createModule source) fun _ ↦ fun _ ↦ ⟨rfl, .of_push rfl trivial⟩

theorem compiles_pipelineFor (source signature : String) (layout : Nat)
    (constants : List (String × Value)) :
    Moves Compiles (Action.pipelineFor source signature layout constants) := by
  unfold Action.pipelineFor
  split
  · refine .bind .get fun engine ↦ ?_
    split
    · exact .pure _
    · exact .bind (compiles_buildPipeline _ _ _) fun _ ↦
        .bind (.update fun _ ↦ ⟨rfl, .of_eq rfl⟩) fun _ ↦ .pure _
  · refine .bind (.ofExcept _) fun _ ↦ .bind .get fun engine ↦ ?_
    split
    · exact .bind (.update fun _ ↦ ⟨rfl, .of_eq rfl⟩) fun _ ↦ .pure _
    · exact .bind (compiles_buildPipeline _ _ _) fun _ ↦
        .bind (.update fun _ ↦ ⟨rfl, .of_eq rfl⟩) fun _ ↦ .pure _

theorem compiles_createPipeline (source : String) (modes : List Mode)
    (constants : List (String × Value)) :
    Moves Compiles (Action.createPipeline source modes constants) :=
  .bind (compiles_createLayout modes) fun _ ↦ .bind (compiles_pipelineFor _ _ _ _) fun _ ↦
    .pure _

/-- A new command encoder is no more than counted. -/
theorem compiles_createEncoder : Moves Compiles (Action.changeDevice Device.createEncoder) :=
  fun _ ↦ ⟨rfl, .of_eq rfl⟩

theorem compiles_encode (dispatch : Dispatch) : Moves Compiles (Action.encode dispatch) :=
  .bind (compiles_createPipeline _ _ _) fun _ ↦ .bind .get fun _ ↦ .bind (.grid _) fun _ ↦
    .pure _

end ComputeArray
