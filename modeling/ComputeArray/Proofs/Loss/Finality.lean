import ComputeArray.Proofs.Loss.Steps

/-!
# The loss is final

Once the device is lost and no read-back is under way, no course calls it again, and whatever is
asked meanwhile is barred: it fails because of the loss, unless it would not come to the device
anyway (`bars_of_lost`).
-/

set_option autoImplicit false

namespace ComputeArray

open Engine Carrier

/-! ### Repeated steps -/

/-- Steps carried out one after the other are reported on, whether they fail or not. -/
theorem exists_outcomeOf_runAll (round : Option Nat) (steps : List Step) (workspace : Workspace) :
    ∃ reports, outcomeOf (Session.runAll round steps) workspace = .ok reports := by
  induction steps generalizing workspace with
  | nil => exact ⟨[], rfl⟩
  | cons step rest ih =>
    obtain ⟨reports, hrest⟩ := ih (stateAfter (Session.run round step) workspace).collect
    unfold Session.runAll
    exact ⟨_, outcomeOf_bind_eq_ok.mpr ⟨outcomeOf (Session.run round step) workspace, rfl,
      outcomeOf_bind_eq_ok.mpr ⟨reports, hrest, rfl⟩⟩⟩

theorem exists_outcomeOf_foldlM {β γ σ : Type} {f : β → γ → ExceptT Failure (StateM σ) β}
    (h : ∀ b c s, ∃ next, outcomeOf (f b c) s = .ok next) (items : List γ) (start : β) (s : σ) :
    ∃ last, outcomeOf (items.foldlM f start) s = .ok last := by
  induction items generalizing start s with
  | nil => exact ⟨start, rfl⟩
  | cons first rest ih =>
    obtain ⟨next, hnext⟩ := h start first s
    obtain ⟨last, hlast⟩ := ih next (stateAfter (f start first) s)
    rw [List.foldlM_cons]
    exact ⟨last, outcomeOf_bind_eq_ok.mpr ⟨next, hnext, hlast⟩⟩

theorem terminal_runAll (round : Option Nat) (steps : List Step) :
    Moves Workspace.Terminal (Session.runAll round steps) := by
  induction steps with
  | nil => exact .pure _
  | cons step rest ih =>
    unfold Session.runAll
    exact .bind (fun workspace ↦ trans_of Workspace.Terminal (terminal_run round step workspace)
      (Workspace.terminal_collect _)) fun _ ↦ .bind ih fun _ ↦ .pure _

/-- However often steps are repeated without the device, no calls of it are counted. -/
theorem outcomeOf_repeated {workspace : Workspace} {notice : LossNotice}
    (h : workspace.engine.Stranded notice) (round : Option Nat) (count : Nat) (steps : List Step) :
    ∃ last, outcomeOf (Session.run round (.repeated count steps)) workspace =
      .ok (.rounds last []) := by
  set rounds : Session (List Report) :=
    (List.range count).foldlM (fun _ i ↦ Session.runAll (some i) steps) [] with hrounds
  obtain ⟨last, hlast⟩ : ∃ last, outcomeOf rounds workspace = .ok last :=
    exists_outcomeOf_foldlM (fun _ i ↦ exists_outcomeOf_runAll (some i) steps) _ _ _
  have hmoves : Moves Workspace.Terminal rounds :=
    .foldlM _ _ fun _ i _ ↦ terminal_runAll (some i) steps
  obtain ⟨-, hcalls, -⟩ := hmoves workspace notice h
  have htaken : outcomeOf (Session.takeCalls workspace.engine.device.calls.size)
      (stateAfter rounds workspace) = .ok [] := by
    refine congrArg Except.ok ?_
    rw [hcalls]
    exact List.drop_length
  unfold Session.run
  exact ⟨last, outcomeOf_bind_eq_ok.mpr ⟨_, rfl, outcomeOf_bind_eq_ok.mpr ⟨last, hlast,
    outcomeOf_bind_eq_ok.mpr ⟨[], htaken, rfl⟩⟩⟩⟩

/-! ### Every course after a loss -/

namespace Workspace

/-- The workspace as it would be if it still had its device. -/
def active (workspace : Workspace) : Workspace :=
  { workspace with engine := { workspace.engine with lost := none } }

/-- How the loss bars a computation. It fails because of the loss; or it fails as it would with the
device, before that is called; or it succeeds as it would with the device, which is not called
either. If it fails, no array has changed. -/
inductive Bars (notice : LossNotice) (m : Session Answer) (workspace : Workspace) : Prop where
  | lost (outcome : outcomeOf m workspace = .error (.deviceLost notice.reason notice.message))
    (untouched : Untouched workspace.engine (stateAfter m workspace).engine)
  | invalid (failure : Failure) (outcome : outcomeOf m workspace = .error failure)
    (untouched : Untouched workspace.engine (stateAfter m workspace).engine)
    (active : outcomeOf m workspace.active = .error failure)
    (unused : (stateAfter m workspace.active).engine.device.calls = workspace.engine.device.calls)
  | carriedOut (answer : Answer) (outcome : outcomeOf m workspace = .ok answer)
    (active : outcomeOf m workspace.active = .ok answer)
    (unused : (stateAfter m workspace.active).engine.device.calls = workspace.engine.device.calls)

end Workspace

/-- What fares so on every state without a device is barred by the loss. -/
theorem Fares.bars {notice : LossNotice} {m : Session Answer} {workspace : Workspace}
    (h : Fares Changed notice m workspace) (hpending : workspace.engine.pending = []) :
    workspace.Bars notice m := by
  have hactive : revive [] workspace.engine.log workspace = workspace.active := by
    rw [Workspace.active, ← hpending]
    rfl
  cases h with
  | refused failure outcome untouched cause =>
    rcases cause with rfl | hsame
    · exact .lost outcome untouched
    · obtain ⟨houtcome, hcalls⟩ := hsame [] workspace.engine.log
      rw [hactive] at houtcome hcalls
      exact .invalid failure outcome untouched houtcome hcalls
  | carriedOut answer outcome stranded same related active =>
    obtain ⟨houtcome, pending', log', hafter⟩ := active [] workspace.engine.log
    rw [hactive] at houtcome hafter
    refine .carriedOut answer outcome houtcome ?_
    rw [hafter]
    exact (calls_revive pending' log' _).trans same

/-- With nothing pending there is nothing to retire. -/
theorem bars_retire {notice : LossNotice} {workspace : Workspace}
    (hpending : workspace.engine.pending = []) (round : Option Nat) (serial : Int) :
    workspace.Bars notice (Session.run round (.retire serial)) := by
  refine .carriedOut .nothing rfl rfl ?_
  change (workspace.active.engine.retire serial).device.calls = _
  have hnone : workspace.active.engine.pending = [] := hpending
  rw [retire, hnone]
  rfl

/-- Once the device is lost and no read-back is under way, it is never called again, the notice of
the loss and the serial stay, and nothing gets pending. Every step is barred then, those about the
loss change nothing, and steps that are repeated make no calls either. -/
theorem bars_of_lost {course : Course} {notice : LossNotice}
    (hreachable : course.workspace.engine.Reachable)
    (hlost : course.workspace.engine.lost = some notice)
    (hidle : ∀ buffer readBack, (course.workspace.engine.array buffer).loading ≠ .copying readBack)
    (happenings : List Happening) :
    let later := (course.afterAll happenings).workspace
    (later.engine.device.calls = course.workspace.engine.device.calls ∧
      later.engine.lost = some notice ∧
      later.engine.serial = course.workspace.engine.serial ∧
      later.engine.pending = []) ∧
    ∀ (round : Option Nat) (step : Step),
      (¬ step.IsAboutLoss → ¬ step.IsRepeated → later.Bars notice (Session.run round step)) ∧
      (step.IsAboutLoss →
        (stateAfter (Session.run round step) later).engine = later.engine) ∧
      ∀ count steps, ∃ last, outcomeOf (Session.run round (.repeated count steps)) later =
        .ok (.rounds last []) := by
  intro later
  have hstranded : course.workspace.engine.Stranded notice :=
    ⟨hlost, hreachable.cleared (by rw [hlost]; nofun), hidle⟩
  obtain ⟨hlater, hcalls, hserial⟩ := course.terminal_afterAll happenings notice hstranded
  refine ⟨⟨hcalls, hlater.lost, hserial, hlater.pending⟩, fun round step ↦
    ⟨fun habout hrepeated ↦ ?_, engine_of_isAboutLoss hlater.lost round,
      outcomeOf_repeated hlater round⟩⟩
  by_cases hretire : step.IsRetire
  · cases step with
    | retire serial => exact bars_retire hlater.pending round serial
    | _ => exact hretire.elim
  · exact (barred_run round habout hretire hrepeated notice later hlater).bars hlater.pending

theorem loading_of_forall {engine : Engine}
    (h : ∀ entry ∈ engine.arrays, entry.2.loading.isUnderWay = false) (buffer : Nat)
    (readBack : ReadBack) : (engine.array buffer).loading ≠ .copying readBack := by
  intro hloading
  have hidle := h _ (mem_of_lookup (exists_lookup_of_loading (by rw [hloading]; nofun)))
  rw [hloading] at hidle
  cases hidle

/-- An addition that needs the device fails once the loss has been marked. -/
theorem bars_of_lost_adding :
    let course := (Course.start (.createWith (fun _ _ held ↦ held) [] ⟨256, 256, 65535⟩ none)
      ⟨.highPerformance, .bool true, 256, .none⟩).afterAll
        [.step (.make (.layout (.value (.int 2)) (.value (.text "f32")) (.value .none)) (some "a")),
          .step (.markLost [.value (.text "unknown"), .value (.text "gone")])]
    let adding :=
      Session.run none (.make (.call "add" ⟨[.reference "a", .reference "a"], none⟩) none)
    outcomeOf adding course.workspace = .error (.deviceLost (.text "unknown") (.text "gone")) ∧
      course.workspace.Bars ⟨.text "unknown", .text "gone"⟩ adding := by
  intro course adding
  have hbars := bars_of_lost (reachable_of_course _ _ _ _ _ _ :
    course.workspace.engine.Reachable) (rfl : course.workspace.engine.lost =
      some ⟨.text "unknown", .text "gone"⟩) (loading_of_forall (by decide +kernel)) []
  exact ⟨rfl, (hbars.2 none _).1 id id⟩

end ComputeArray
