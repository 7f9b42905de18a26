import ComputeArray.Proofs.Loss.Terminal

/-!
# Courses after a loss

Once the device is lost and no read-back is under way, a course never calls the device again: the
trace, the serial and the notice of the loss stay as they are.
-/

set_option autoImplicit false

namespace ComputeArray

namespace Workspace

/-- Nothing more is asked of the lost device of a workspace. -/
def Terminal (before after : Workspace) : Prop := Engine.Terminal before.engine after.engine

instance : Std.Refl Terminal := ⟨fun workspace ↦ Engine.Terminal.refl workspace.engine⟩

instance : IsTrans Workspace Terminal :=
  ⟨fun _ _ _ hfirst hlast ↦ trans_of Engine.Terminal hfirst hlast⟩

theorem terminal_act {α : Type} {action : Action α} (h : Moves Engine.Terminal action) :
    Moves Terminal (Session.act action) :=
  fun workspace ↦ h workspace.engine

theorem terminal_collect (workspace : Workspace) : Terminal workspace workspace.collect :=
  Engine.terminal_collect _ _ workspace.engine

end Workspace

open Workspace (Terminal)

/-- The calls of rounds are taken off the trace again: there are none. -/
theorem terminal_rounds {rounds : Session (List Report)} (h : Moves Terminal rounds) :
    Moves Terminal (do
      let start ← Session.callCount
      let last ← rounds
      return Answer.rounds last (Session.countCalls (← Session.takeCalls start))) := by
  intro workspace notice hstranded
  obtain ⟨hlater, hcalls, hserial⟩ := h workspace notice hstranded
  set later := stateAfter rounds workspace with hrounds
  have hstate : stateAfter (do
      let start ← Session.callCount
      let last ← rounds
      return Answer.rounds last (Session.countCalls (← Session.takeCalls start))) workspace =
        match outcomeOf rounds workspace with
        | .ok _ => { later with engine := { later.engine with
            device := { later.engine.device with
              calls := later.engine.device.calls.take workspace.engine.device.calls.size } } }
        | .error _ => later := by
    have hcount : outcomeOf Session.callCount workspace =
        .ok workspace.engine.device.calls.size := rfl
    rw [stateAfter_bind_of_ok hcount]
    change stateAfter (rounds >>= _) workspace = _
    rw [stateAfter_bind]
    cases outcomeOf rounds workspace with
    | error failure => rfl
    | ok last => rfl
  rw [hstate]
  cases outcomeOf rounds workspace with
  | error failure => exact ⟨hlater, hcalls, hserial⟩
  | ok last =>
    have htaken : later.engine.device.calls.take workspace.engine.device.calls.size =
        later.engine.device.calls := by
      rw [← hcalls]
      simp
    exact ⟨⟨hlater.lost, hlater.pending, hlater.idle⟩, htaken.trans hcalls, hserial⟩

theorem terminal_run (round : Option Nat) (step : Step) :
    Moves Terminal (Session.run round step) :=
  moves_run (fun buffer ↦ Workspace.terminal_act (terminal_requestLoad buffer))
    (fun buffer ↦ Workspace.terminal_act (terminal_startLoad buffer))
    (fun buffer ↦ Workspace.terminal_act (terminal_finishLoad buffer))
    Workspace.terminal_collect
    (fun round step _ workspace ↦
      terminal_of_leads (sessionMadeOf_runSimple_keepsTrace round step workspace))
    (fun _ ↦ terminal_rounds) round step

namespace Course

variable {α : Type}

theorem terminal_carry {m : Session α} (h : Moves Terminal m) (course : Course) :
    Terminal course.workspace (course.carry m).workspace :=
  trans_of Terminal (h course.workspace) (Workspace.terminal_collect _)

theorem terminal_after (course : Course) (happening : Happening) :
    Terminal course.workspace (course.after happening).workspace := by
  cases happening with
  | step step => exact terminal_carry (terminal_run none step) course
  | requestLoad name =>
    exact terminal_carry (.bind (moves_array name) fun buffer ↦
      Workspace.terminal_act (terminal_requestLoad buffer)) course
  | startLoad buffer =>
    exact terminal_carry (Workspace.terminal_act (terminal_startLoad buffer)) course
  | finishLoad buffer =>
    exact terminal_carry (Workspace.terminal_act (terminal_finishLoad buffer)) course
  | beginSynchronize =>
    have hbegin : Moves Engine.Terminal Action.beginSynchronize := .refused _
    have hbegun := terminal_carry (Workspace.terminal_act hbegin) course
    unfold Course.after
    dsimp only
    split
    · exact hbegun
    · exact hbegun
  | finishSynchronize index =>
    unfold Course.after
    dsimp only
    split
    · next serial made hwait =>
      exact terminal_carry (Workspace.terminal_act (.update (Engine.terminal_retire serial)))
        { course with
          history := .completed made :: course.history
          waits := course.waits.eraseIdx index }
    · exact refl_of Terminal course.workspace

theorem terminal_afterAll (course : Course) (happenings : List Happening) :
    Terminal course.workspace (course.afterAll happenings).workspace := by
  induction happenings generalizing course with
  | nil => exact refl_of Terminal course.workspace
  | cons happening rest ih => exact trans_of Terminal (course.terminal_after happening) (ih _)

end Course

end ComputeArray
