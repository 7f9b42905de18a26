import ComputeArray.Proofs.Lifetime.Run
import ComputeArray.Proofs.Memory.Reach

/-!
# Reachable states

The states an engine on a new device comes to, whatever is asked of it, in which order, and whatever
the passes compute. Those are the states of all courses (`reachable_of_course`). In every one of
them copies fit and caches are faithful.
-/

set_option autoImplicit false

namespace ComputeArray

namespace Engine

/-- Some primitives lead from an engine on a new device to this state. -/
def Reachable (engine : Engine) : Prop :=
  ∃ (computing : Computing) (features : List String) (limits : Limits)
    (destroyFailure : Option String) (options : Options),
    Leads Primitive.Any
      (create (.createWith computing features limits destroyFailure) options) engine

theorem fitting_create (device : Device) (options : Options) : (create device options).Fitting :=
  fun _ _ h ↦ by cases h

/-- A run of primitives keeps copies fitting and caches faithful. -/
theorem fitting_afterAll {engine : Engine} (primitives : List Primitive)
    (hfitting : engine.Fitting) (hfaithful : engine.FaithfulCaches) :
    (engine.afterAll primitives).Fitting ∧ (engine.afterAll primitives).FaithfulCaches := by
  induction primitives generalizing engine with
  | nil => exact ⟨hfitting, hfaithful⟩
  | cons primitive rest ih =>
    exact ih (confined_after primitive hfaithful hfitting).1
      (caching_after primitive engine hfaithful).1

namespace Reachable

variable {engine : Engine}

theorem afterAll (h : engine.Reachable) (primitives : List Primitive) :
    (engine.afterAll primitives).Reachable := by
  obtain ⟨computing, features, limits, destroyFailure, options, hleads⟩ := h
  exact ⟨computing, features, limits, destroyFailure, options,
    hleads.trans ⟨primitives, fun _ _ ↦ trivial, rfl⟩⟩

theorem fitting_and_faithfulCaches (h : engine.Reachable) :
    engine.Fitting ∧ engine.FaithfulCaches := by
  obtain ⟨computing, features, limits, destroyFailure, options, primitives, -, rfl⟩ := h
  exact fitting_afterAll primitives (fitting_create _ _) (faithfulCaches_create _ _ _ _ _)

theorem fitting (h : engine.Reachable) : engine.Fitting := h.fitting_and_faithfulCaches.1

theorem faithfulCaches (h : engine.Reachable) : engine.FaithfulCaches :=
  h.fitting_and_faithfulCaches.2

/-- Buffers stay. -/
theorem count_le_afterAll (h : engine.Reachable) (primitives : List Primitive) :
    engine.device.buffers.size ≤ (engine.afterAll primitives).device.buffers.size := by
  induction primitives generalizing engine with
  | nil => exact Nat.le_refl _
  | cons primitive rest ih =>
    exact Nat.le_trans (confined_after primitive h.faithfulCaches h.fitting).2.1
      (ih (h.afterAll [primitive]))

end Reachable

end Engine

/-! ### Courses -/

theorem madeOf_beginSynchronize : MadeOf Primitive.Any Action.beginSynchronize := by
  refine .bind .assertActive fun _ ↦ .bind .get fun _ ↦ .bind (fun engine ↦ ?_) fun _ ↦ .pure _
  exact ⟨[.replaceCalls (engine.device.calls.push (.awaitQueue false))], fun _ _ ↦ trivial, rfl⟩

namespace Course

variable {α : Type} {course : Course}

theorem leads_carry {m : Session α} (h : SessionMadeOf Primitive.Any m) (course : Course) :
    Leads Primitive.Any course.workspace.engine (course.carry m).workspace.engine :=
  (h course.workspace).trans ((leads_collect _).mono fun _ _ ↦ trivial)

/-- Whatever happens takes the engine through primitives. -/
theorem leads_after (course : Course) (happening : Happening) :
    Leads Primitive.Any course.workspace.engine (course.after happening).workspace.engine := by
  cases happening with
  | step step => exact leads_carry (sessionMadeOf_run none step) course
  | requestLoad name =>
    exact leads_carry (.bind (moves_array name) fun buffer ↦
      .act (.single (.requestLoad buffer) trivial fun _ ↦ rfl)) course
  | startLoad buffer => exact leads_carry (.act (madeOf_startLoad buffer)) course
  | finishLoad buffer =>
    exact leads_carry (.act (.single (.finishLoad buffer) trivial fun _ ↦ rfl)) course
  | beginSynchronize =>
    have hbegun := leads_carry (.act madeOf_beginSynchronize) course
    unfold Course.after
    dsimp only
    split
    · exact hbegun
    · exact hbegun
  | finishSynchronize index =>
    unfold Course.after
    dsimp only
    split
    · next serial made hwait =>
      exact leads_carry (.act (.single (.retire serial) trivial fun _ ↦ rfl)) { course with
        history := .completed made :: course.history
        waits := course.waits.eraseIdx index }
    · exact .refl _

theorem leads_afterAll (happenings : List Happening) (course : Course) :
    Leads Primitive.Any course.workspace.engine (course.afterAll happenings).workspace.engine := by
  induction happenings generalizing course with
  | nil => exact .refl _
  | cons happening rest ih => exact (course.leads_after happening).trans (ih _)

end Course

/-- Every course only comes to reachable states. -/
theorem reachable_of_course (computing : Computing) (features : List String) (limits : Limits)
    (destroyFailure : Option String) (options : Options) (happenings : List Happening) :
    ((Course.start (.createWith computing features limits destroyFailure)
      options).afterAll happenings).workspace.engine.Reachable :=
  ⟨computing, features, limits, destroyFailure, options, Course.leads_afterAll happenings _⟩

end ComputeArray
