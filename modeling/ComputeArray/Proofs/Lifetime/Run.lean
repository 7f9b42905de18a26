import ComputeArray.Proofs.Lifetime.Steps

/-!
# Runs with waits under way

Waiting for the queue and loading an array take time, and other things happen meanwhile. A course is
a workspace with its history and the waits for the queue under way. If no step gives the buffer of a
released array to the queue, no course ever destroys a buffer before the last submission that uses
it is known to be done (`safe_of_heedsAll`).
-/

set_option autoImplicit false

namespace ComputeArray

open Engine

/-! ### Waiting for the queue -/

/-- Asks for a wait until all submitted work is done, and gives the serial to retire then. -/
def Action.beginSynchronize : Action Nat := do
  assertActive
  let serial := (← get).serial
  changeDevice (Device.record (.awaitQueue false))
  return serial

/-- A wait for the queue that nothing interrupts. -/
theorem synchronize_eq : Action.synchronize false =
    (do
      let serial ← Action.beginSynchronize
      modify (Engine.retire serial)) := by
  simp only [Action.synchronize, Action.beginSynchronize, bind_assoc, pure_bind]

/-! ### Courses -/

/-- What happens to a workspace in between other happenings. -/
inductive Happening where
  | step (step : Step)
  | requestLoad (name : String)
  /-- The copy of a requested load is submitted, and its mapping asked for. -/
  | startLoad (buffer : Nat)
  /-- The mapping a load waits for is done. -/
  | finishLoad (buffer : Nat)
  | beginSynchronize
  /-- A wait under way is over. -/
  | finishSynchronize (index : Nat)

structure Course where
  workspace : Workspace
  history : History
  /-- The waits for the queue under way: the serial each will retire, and the number of submissions
  made when it was asked for. -/
  waits : List (Nat × Nat)

namespace Course

def start (device : Device) (options : Options) : Course := ⟨.create device options, [], []⟩

/-- The course after a computation and the collection that follows it. -/
def carry {α : Type} (m : Session α) (course : Course) : Course :=
  let workspace := (stateAfter m course.workspace).collect
  let new := workspace.engine.device.calls.toList.drop course.workspace.engine.device.calls.size
  { course with workspace, history := course.history.extend new }

def after (course : Course) : Happening → Course
  | .step step => course.carry (Session.run none step)
  | .requestLoad name => course.carry do
    Session.act (Action.requestLoad (← Session.array name))
  | .startLoad buffer => course.carry (Session.act (Action.startLoad buffer))
  | .finishLoad buffer => course.carry (Session.act (Action.finishLoad buffer))
  | .beginSynchronize =>
    let begun := course.carry (Session.act Action.beginSynchronize)
    match outcomeOf Action.beginSynchronize course.workspace.engine with
    | .ok serial => { begun with waits := begun.waits ++ [(serial, course.history.submissions)] }
    | .error _ => begun
  | .finishSynchronize index =>
    match course.waits[index]? with
    | some (serial, made) =>
      carry (Session.act (modify (Engine.retire serial)))
        { course with
          history := .completed made :: course.history
          waits := course.waits.eraseIdx index }
    | none => course

/-- A step takes the workspace of a course on as it does outside of a course. -/
theorem workspace_after_step (course : Course) (step : Step) :
    (course.after (.step step)).workspace = course.workspace.afterStep step :=
  rfl

def afterAll (course : Course) (happenings : List Happening) : Course :=
  happenings.foldl after course

/-- No buffer of a released array is given to the queue, and steps that take time are taken apart
into their happenings. -/
def Heeds (course : Course) : Happening → Prop
  | .step step => step.isWhole course.history = true ∧
    ∀ buffer ∈ step.uses course.workspace, course.workspace.engine.Live buffer
  | .startLoad buffer => course.workspace.engine.Live buffer
  | _ => True

/-- All happenings of a run heed releases. -/
def HeedsAll (course : Course) : List Happening → Prop
  | [] => True
  | happening :: rest => course.Heeds happening ∧ (course.after happening).HeedsAll rest

instance (course : Course) (happening : Happening) : Decidable (course.Heeds happening) :=
  match happening with
  | .step _ => inferInstanceAs (Decidable (_ ∧ _))
  | .startLoad _ => inferInstanceAs (Decidable (Engine.Live _ _))
  | .requestLoad _ => isTrue trivial
  | .finishLoad _ => isTrue trivial
  | .beginSynchronize => isTrue trivial
  | .finishSynchronize _ => isTrue trivial

instance decidableHeedsAll : (happenings : List Happening) → (course : Course) →
    Decidable (course.HeedsAll happenings)
  | [], _ => isTrue trivial
  | happening :: rest, course =>
    have := decidableHeedsAll rest (course.after happening)
    inferInstanceAs (Decidable (_ ∧ _))

/-- The history tells all calls of an orderly workspace, and waits under way retire what had been
submitted when they were asked for. -/
structure Orderly (course : Course) : Prop where
  workspace : course.workspace.Orderly course.history
  calls : course.history.calls = course.workspace.engine.device.calls.toList
  waits : ∀ wait ∈ course.waits, wait.1 ≤ wait.2

variable {α : Type} {course : Course}

theorem orderly_start (computing : Computing) (features : List String) (limits : Limits)
    (destroyFailure : Option String) (options : Options) :
    (start (.createWith computing features limits destroyFailure) options).Orderly := by
  have hempty : History.Safe [] := by
    intro later buffer earlier hsplit
    simp at hsplit
  refine ⟨⟨⟨hempty, rfl, nofun, nofun, ?_, nofun, nofun⟩, nofun⟩, rfl, nofun⟩
  rintro buffer (⟨needed, hmem⟩ | hmem) <;> cases hmem

/-- A computation that keeps order, with the collection that follows it. -/
theorem Orderly.carry {m : Session α} {Q : α → History → Workspace → Prop}
    (h : course.Orderly) (hm : KeepsOrderAt course.history course.workspace m Q) :
    (course.carry m).Orderly := by
  obtain ⟨middle, hfirst, hmiddle, -⟩ := hm h.workspace
  set next := stateAfter m course.workspace with hnext
  obtain ⟨later, hlast, -⟩ :=
    KeepsOrder.collect (next.arrays.map Prod.snd) (next.generators.map Prod.snd) middle next.engine
      hmiddle.engine trivial
  have hadvances := hfirst.trans hlast
  obtain ⟨calls, hcalls, rfl⟩ := hadvances.calls
  have hhistory : (course.carry m).history = course.history.extend calls := by
    have hnew := congrArg (List.drop course.workspace.engine.device.calls.size) hcalls
    rw [List.drop_left' Array.length_toList] at hnew
    exact congrArg course.history.extend hnew
  refine ⟨⟨hhistory ▸ hadvances.orderly, fun entry hmem ↦ ?_⟩, ?_, h.waits⟩
  · exact Nat.le_trans (hmiddle.named entry hmem) hlast.count
  · rw [hhistory, History.calls_extend, h.calls]
    exact hcalls.symm

theorem calm_beginSynchronize : Moves Calm Action.beginSynchronize :=
  .bind .assertActive fun _ ↦ .bind .get fun _ ↦
    .bind (calm_changeDevice (fun _ ↦ .of_push rfl rfl) fun _ ↦ rfl) fun _ ↦ .pure _

theorem serial_of_beginSynchronize {engine : Engine} {serial : Nat}
    (h : outcomeOf Action.beginSynchronize engine = .ok serial) : serial = engine.serial := by
  simp only [Action.beginSynchronize, outcomeOf_bind_eq_ok, stateAfter_assertActive, outcomeOf_get,
    Except.ok.injEq, exists_eq_left', outcomeOf_pure] at h
  obtain ⟨-, -, -, -, hserial⟩ := h
  exact hserial.symm

theorem run_eq_runSimple_of_isWhole {step : Step} {history : History}
    (h : step.isWhole history = true) : Session.run none step = Session.runSimple none step := by
  cases step with
  | load names during => cases h
  | repeated count steps => cases h
  | _ => rfl

/-- The end of a wait may retire what had been submitted when it was asked for. -/
theorem Orderly.complete {serial made index : Nat} (h : course.Orderly)
    (hwait : course.waits[index]? = some (serial, made)) :
    serial ≤ made ∧ Orderly { course with
      history := .completed made :: course.history
      waits := course.waits.eraseIdx index } := by
  have hevent : (Event.completed made).IsWait := trivial
  have hcount : course.workspace.engine.device.buffers.size =
      course.workspace.engine.device.buffers.size := rfl
  refine ⟨h.waits _ (List.mem_of_getElem? hwait), ⟨h.workspace.engine.wait hevent hcount,
    h.workspace.named⟩, ?_, fun wait hmem ↦ h.waits wait (List.mem_of_mem_eraseIdx hmem)⟩
  exact h.calls

/-- Each happening that heeds releases keeps a course orderly. -/
theorem Orderly.after {happening : Happening} (h : course.Orderly)
    (hheeds : course.Heeds happening) : (course.after happening).Orderly := by
  cases happening with
  | step step =>
    have hstep : KeepsOrderAt course.history course.workspace (Session.run none step) Any := by
      rw [run_eq_runSimple_of_isWhole hheeds.1]
      exact keepsOrderAt_runSimple hheeds.1 hheeds.2
    exact h.carry hstep
  | requestLoad name =>
    exact h.carry (.resolve (moves_array name) fun buffer _ ↦ .calmly (calm_requestLoad buffer))
  | startLoad buffer =>
    exact h.carry (.act (@KeepsOrder.startLoad [] buffer) fun _ ↦ allLive_singleton hheeds)
  | finishLoad buffer => exact h.carry (.act (@KeepsOrder.finishLoad [] buffer) fun _ ↦ nofun)
  | beginSynchronize =>
    have hbegun := h.carry (.calmly calm_beginSynchronize)
    unfold Course.after
    dsimp only
    split
    · next serial hserial =>
      refine ⟨hbegun.workspace, hbegun.calls, fun wait hmem ↦ ?_⟩
      rcases List.mem_append.mp hmem with hmem | hmem
      · exact hbegun.waits wait hmem
      · obtain rfl := List.mem_singleton.mp hmem
        rw [serial_of_beginSynchronize hserial, h.workspace.engine.serial]
    · exact hbegun
  | finishSynchronize index =>
    unfold Course.after
    dsimp only
    split
    · next serial made hwait =>
      obtain ⟨hle, hcomplete⟩ := h.complete hwait
      exact hcomplete.carry (.act (@KeepsOrder.retire [] serial)
        fun _ ↦ ⟨Int.ofNat_le.mpr hle, nofun⟩)
    · exact h

theorem Orderly.afterAll {happenings : List Happening} (h : course.Orderly)
    (hheeds : course.HeedsAll happenings) : (course.afterAll happenings).Orderly := by
  induction happenings generalizing course with
  | nil => exact h
  | cons happening rest ih => exact ih (h.after hheeds.1) hheeds.2

end Course

/-- Whatever is submitted, loaded, waited for and released in which order, as long as no released
array is used: no buffer is destroyed before all submissions that bind or copy it are known to be
done. -/
theorem safe_of_heedsAll (computing : Computing) (features : List String) (limits : Limits)
    (destroyFailure : Option String) (options : Options) (happenings : List Happening)
    (hheeds : (Course.start (.createWith computing features limits destroyFailure)
      options).HeedsAll happenings) :
    let course := (Course.start (.createWith computing features limits destroyFailure)
      options).afterAll happenings
    course.history.Safe ∧
      course.history.calls = course.workspace.engine.device.calls.toList ∧
      course.history.submissions = course.workspace.engine.serial := by
  have horderly := (Course.orderly_start computing features limits destroyFailure options).afterAll
    hheeds
  exact ⟨horderly.workspace.engine.safe, horderly.calls, horderly.workspace.engine.serial.symm⟩

/-- A wait for the queue is overtaken by a further addition and the end of its operand; then a load
is overtaken by the end of its array. -/
def overtakenWaits : List Happening :=
  [.step (.make (.layout (.value (.int 4)) (.value (.text "f32")) (.value .none)) (some "a")),
    .step (.make (.elementwise "add" ⟨[.reference "a", .reference "a"], some "a"⟩) none),
    .beginSynchronize,
    .step (.make (.elementwise "add" ⟨[.reference "a", .value (.int 1)], none⟩) (some "b")),
    .step (.drop "a"), .finishSynchronize 0, .requestLoad "b", .startLoad 3, .step (.drop "b"),
    .finishLoad 3]

/-- A course on a device whose passes change nothing. -/
def idleCourse : Course :=
  .start (.createWith (fun _ _ held ↦ held) [] ⟨256, 256, 65535⟩ none)
    ⟨.highPerformance, .bool true, 256, .none⟩

/-- The wait destroys the temporary of the first addition but not its operand, which is in use
again; the load destroys its staging buffer and then the operand. -/
theorem safe_of_heedsAll_overtaken :
    idleCourse.HeedsAll overtakenWaits ∧
      (idleCourse.afterAll overtakenWaits).history.destroyed = [1, 4, 2] ∧
        (idleCourse.afterAll overtakenWaits).history.Safe := by
  have hheeds : idleCourse.HeedsAll overtakenWaits := by decide +kernel
  have hsafe := safe_of_heedsAll (fun _ _ held ↦ held) [] ⟨256, 256, 65535⟩ none
    ⟨.highPerformance, .bool true, 256, .none⟩ overtakenWaits hheeds
  exact ⟨hheeds, by decide +kernel, hsafe.1⟩

end ComputeArray
