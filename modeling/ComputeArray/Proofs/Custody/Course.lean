import ComputeArray.Proofs.Custody.Steps
import ComputeArray.Proofs.Lifetime.Run

/-!
# Runs that keep account

Along a course every buffer stays in one place: an array that has not been released owns it, it
waits in the queue once, it has been destroyed once, or a load under way reads it back. The only
buffers that come loose are stride buffers of steps that fail (`accounts_of_groundedAll`), and these
do (`stride_buffers_lost`).
-/

set_option autoImplicit false

namespace ComputeArray

open Engine

/-- Nothing comes loose, and names stay what they are. -/
structure Workspace.Preserves (before after : Workspace) : Prop where
  engine : Engine.Preserves before.engine after.engine
  names : after.names = before.names

namespace Course

variable {α : Type} {course : Course} {earlier found : List Nat}

instance : Std.Refl Workspace.Preserves := ⟨fun workspace ↦ ⟨.refl [] workspace.engine, rfl⟩⟩

instance : IsTrans Workspace Workspace.Preserves := ⟨fun _ _ _ hfirst hlast ↦
  ⟨hfirst.engine.trans hlast.engine, hlast.names.trans hfirst.names⟩⟩

theorem preserves_act {action : Action α} (h : Moves Engine.Preserves action) :
    Moves Workspace.Preserves (Session.act action) :=
  fun workspace ↦ ⟨h workspace.engine, rfl⟩

theorem preserves_beginSynchronize : Moves Engine.Preserves Action.beginSynchronize :=
  .bind .assertActive fun _ ↦ .bind .get fun _ ↦ .bind (preserves_record _ nofun) fun _ ↦ .pure _

/-! ### Conditions -/

/-- Steps use arrays that exist, and those that take time are taken apart into their happenings. -/
def Grounded (course : Course) : Happening → Prop
  | .step step => step.isSingle = true ∧
    ∀ buffer ∈ step.uses course.workspace, buffer ∈ course.workspace.engine.arrays.map Prod.fst
  | _ => True

def GroundedAll (course : Course) : List Happening → Prop
  | [] => True
  | happening :: rest => course.Grounded happening ∧ (course.after happening).GroundedAll rest

instance (course : Course) (happening : Happening) : Decidable (course.Grounded happening) :=
  match happening with
  | .step _ => inferInstanceAs (Decidable (_ ∧ _))
  | .startLoad _ => isTrue trivial
  | .requestLoad _ => isTrue trivial
  | .finishLoad _ => isTrue trivial
  | .beginSynchronize => isTrue trivial
  | .finishSynchronize _ => isTrue trivial

instance decidableGroundedAll : (happenings : List Happening) → (course : Course) →
    Decidable (course.GroundedAll happenings)
  | [], _ => isTrue trivial
  | happening :: rest, course =>
    have := decidableGroundedAll rest (course.after happening)
    inferInstanceAs (Decidable (_ ∧ _))

/-- The stride buffers a computation makes before it fails. -/
def strayed (course : Course) (m : Session α) : List Nat :=
  match outcomeOf m course.workspace with
  | .ok _ => []
  | .error _ => (stateAfter m course.workspace).engine.device.strides.filter
    (course.workspace.engine.device.buffers.size < ·)

/-- The stride buffers a happening makes before it fails; only steps make any. -/
def strayedBy (course : Course) : Happening → List Nat
  | .step step => course.strayed (Session.run none step)
  | _ => []

/-- The stride buffers made by failing steps of a run. -/
def strayedAll (course : Course) : List Happening → List Nat
  | [] => []
  | happening :: rest => course.strayedBy happening ++ (course.after happening).strayedAll rest

/-! ### Steps of a run -/

/-- The engine keeps account of all buffers, and names of arrays lead to arrays. -/
structure Accounted (loose : List Nat) (course : Course) : Prop where
  custody : course.workspace.engine.Custody loose
  held : course.workspace.held ⊆ course.workspace.engine.arrays.map Prod.fst

theorem Accounted.holding (h : course.Accounted earlier)
    (hfound : found ⊆ course.workspace.engine.arrays.map Prod.fst) :
    course.workspace.Holding earlier course.workspace.engine.device.buffers.size [] found :=
  h.custody.holding (List.append_subset.mpr ⟨h.held, hfound⟩)

/-- A collection keeps what names lead to. -/
theorem accounted_carry {m : Session α} {loose : List Nat}
    (hcustody : (stateAfter m course.workspace).engine.Custody loose)
    (hheld : (stateAfter m course.workspace).held ⊆
      (stateAfter m course.workspace).engine.arrays.map Prod.fst) :
    (course.carry m).Accounted loose := by
  refine ⟨hcustody.collect _ _, fun buffer hmem ↦ ?_⟩
  have hkept : buffer ∈ (stateAfter m course.workspace).held := hmem
  refine (keys_collect _ _ _).symm ▸ List.mem_filter.mpr ⟨hheld hkept, List.contains_iff_mem.mpr ?_⟩
  exact List.mem_append_left _ (List.mem_append_left _ hkept)

/-- A computation that keeps account, with the collection that follows it. -/
theorem Accounted.carry {m : Session α} {more : α → List Nat} (h : course.Accounted earlier)
    (hm : KeepsCustodyAt found course.workspace m more)
    (hfound : found ⊆ course.workspace.engine.arrays.map Prod.fst) :
    ∃ stray, stray ⊆ course.strayed m ∧ (course.carry m).Accounted (stray ++ earlier) := by
  have hafter := hm earlier _ (h.holding hfound)
  unfold strayed
  cases houtcome : outcomeOf m course.workspace with
  | ok a =>
    rw [houtcome] at hafter
    exact ⟨[], List.Subset.refl _, accounted_carry hafter.custody
      (List.append_subset.mp hafter.found).1⟩
  | error failure =>
    rw [houtcome] at hafter
    obtain ⟨stray, hstray⟩ := hafter
    refine ⟨stray, fun buffer hmem ↦ ?_, accounted_carry hstray.custody
      (List.append_subset.mp hstray.found).1⟩
    obtain ⟨hnew, hstrides⟩ := hstray.made buffer hmem
    exact List.mem_filter.mpr ⟨hstrides, decide_eq_true hnew⟩

theorem Accounted.preserve {m : Session α} (h : course.Accounted earlier)
    (hm : Moves Workspace.Preserves m) : (course.carry m).Accounted earlier := by
  obtain ⟨hengine, hnames⟩ := hm course.workspace
  refine accounted_carry (hengine.custody earlier h.custody) ?_
  rw [Workspace.held, Workspace.arrays, hnames]
  exact List.Subset.trans h.held hengine.keys

/-- What happens besides steps leaves nothing loose. -/
theorem Accounted.after {happening : Happening} (h : course.Accounted earlier)
    (hgrounded : course.Grounded happening) :
    ∃ stray, stray ⊆ course.strayedBy happening ∧
      (course.after happening).Accounted (stray ++ earlier) := by
  cases happening with
  | step step =>
    have hstep : KeepsCustodyAt (step.uses course.workspace) course.workspace
        (Session.run none step) fun _ ↦ [] := by
      rw [run_eq_runSimple_of_isSingle hgrounded.1]
      exact keepsCustodyAt_runSimple hgrounded.1 (List.Subset.refl _)
    exact h.carry hstep hgrounded.2
  | requestLoad name =>
    exact ⟨[], List.nil_subset _, h.preserve (.bind (moves_array name) fun buffer ↦
      preserves_act (preserves_requestLoad buffer))⟩
  | startLoad buffer =>
    exact ⟨[], List.nil_subset _, h.preserve (preserves_act (preserves_startLoad buffer))⟩
  | finishLoad buffer =>
    exact ⟨[], List.nil_subset _, h.preserve (preserves_act (preserves_finishLoad buffer))⟩
  | beginSynchronize =>
    have hbegun := h.preserve (preserves_act preserves_beginSynchronize)
    refine ⟨[], List.nil_subset _, ?_⟩
    unfold Course.after
    dsimp only
    split
    · exact ⟨hbegun.custody, hbegun.held⟩
    · exact hbegun
  | finishSynchronize index =>
    refine ⟨[], List.nil_subset _, ?_⟩
    unfold Course.after
    dsimp only
    split
    · next serial made _ =>
      have hcompleted : Accounted earlier { course with
          history := .completed made :: course.history
          waits := course.waits.eraseIdx index } := ⟨h.custody, h.held⟩
      exact hcompleted.preserve (preserves_act (.update (preserves_retire serial)))
    · exact h

theorem Accounted.afterAll {happenings : List Happening} (h : course.Accounted earlier)
    (hgrounded : course.GroundedAll happenings) :
    ∃ stranded, stranded ⊆ course.strayedAll happenings ∧
      (course.afterAll happenings).Accounted (stranded ++ earlier) := by
  induction happenings generalizing course earlier with
  | nil => exact ⟨[], List.nil_subset _, h⟩
  | cons happening rest ih =>
    obtain ⟨first, hfirst, hafter⟩ := h.after hgrounded.1
    obtain ⟨later, hlater, hrest⟩ := ih hafter hgrounded.2
    refine ⟨later ++ first, ?_, List.append_assoc later first earlier ▸ hrest⟩
    exact List.append_subset.mpr ⟨List.subset_append_of_subset_right _ hlater,
      List.subset_append_of_subset_left _ hfirst⟩

theorem accounted_start (computing : Computing) (features : List String) (limits : Limits)
    (destroyFailure : Option String) (options : Options) :
    (start (.createWith computing features limits destroyFailure) options).Accounted [] :=
  ⟨⟨.nil, nofun, nofun, nofun, fun _ ↦ .refl _⟩, List.nil_subset _⟩

end Course

theorem exists_custody_of_groundedAll (computing : Computing) (features : List String)
    (limits : Limits) (destroyFailure : Option String) (options : Options)
    {happenings : List Happening}
    (hgrounded : (Course.start (.createWith computing features limits destroyFailure)
      options).GroundedAll happenings) :
    ∃ loose, ((Course.start (.createWith computing features limits destroyFailure)
      options).afterAll happenings).workspace.engine.Custody loose := by
  obtain ⟨_, -, haccounted⟩ := (Course.accounted_start computing features limits destroyFailure
    options).afterAll hgrounded
  exact ⟨_, haccounted.custody⟩

/-- Whatever is submitted, loaded, waited for and released in which order, and whether steps succeed
or fail: as long as the device is not lost, each buffer ever created is in one place and there once,
but for some of the stride buffers that failing steps have made. -/
theorem accounts_of_groundedAll (computing : Computing) (features : List String) (limits : Limits)
    (destroyFailure : Option String) (options : Options) (happenings : List Happening)
    (hgrounded : (Course.start (.createWith computing features limits destroyFailure)
      options).GroundedAll happenings)
    (hactive : ((Course.start (.createWith computing features limits destroyFailure)
      options).afterAll happenings).workspace.engine.lost = none) :
    let started := Course.start (.createWith computing features limits destroyFailure) options
    let engine := (started.afterAll happenings).workspace.engine
    ∃ stranded, stranded ⊆ started.strayedAll happenings ∧
      (List.range' 1 engine.device.buffers.size).Perm
        (engine.owned ++ engine.queued ++ engine.device.destroyed ++ engine.staging ++
          stranded) := by
  obtain ⟨stranded, hstranded, haccounted⟩ := (Course.accounted_start computing features limits
    destroyFailure options).afterAll hgrounded
  rw [List.append_nil] at haccounted
  exact ⟨stranded, hstranded, haccounted.custody.accounts hactive⟩

/-- A product that is broadcast, a sum of the same arrays that the
compiler refuses, and a wait after the end of all arrays. -/
def refusedSum : List Happening :=
  [.step (.make (.layout (.list [.value (.int 2), .value (.int 1)]) (.value (.text "f32"))
      (.value .none)) (some "a")),
    .step (.make (.layout (.value (.int 3)) (.value (.text "f32")) (.value .none)) (some "b")),
    .step (.make (.call "mul" ⟨[.reference "a", .reference "b"], none⟩) (some "c")),
    .step (.setCompiler (.refusing "no compiler")),
    .step (.make (.call "add" ⟨[.reference "a", .reference "b"], none⟩) (some "d")),
    .step (.drop "a"), .step (.drop "b"), .step (.drop "c"), .beginSynchronize,
    .finishSynchronize 0]

/-- In the end all but the stride buffers of the sum have been destroyed. -/
theorem accounts_of_groundedAll_refused :
    idleCourse.GroundedAll refusedSum ∧
      (idleCourse.afterAll refusedSum).workspace.engine.lost = none ∧
        ∃ stranded, stranded ⊆ [8, 9, 10] ∧
          (List.range' 1 10).Perm ([4, 5, 6, 7, 1, 2, 3] ++ stranded) := by
  have hgrounded : idleCourse.GroundedAll refusedSum := by decide +kernel
  have hactive : (idleCourse.afterAll refusedSum).workspace.engine.lost = none := by
    decide +kernel
  have hstrayed : idleCourse.strayedAll refusedSum = [8, 9, 10] := by decide +kernel
  have hcount : (idleCourse.afterAll refusedSum).workspace.engine.device.buffers.size = 10 := by
    decide +kernel
  have hplaces : let engine := (idleCourse.afterAll refusedSum).workspace.engine
      engine.owned ++ engine.queued ++ engine.device.destroyed ++ engine.staging =
        [4, 5, 6, 7, 1, 2, 3] := by decide +kernel
  refine ⟨hgrounded, hactive, ?_⟩
  rw [← hstrayed, ← hplaces, ← hcount]
  unfold idleCourse at hgrounded hactive ⊢
  exact accounts_of_groundedAll _ _ _ _ _ refusedSum hgrounded hactive

/-- The stride buffers of the sum are in no place: no array owns them,
they do not wait in the queue, and they have not been destroyed. -/
theorem stride_buffers_lost :
    let engine := (idleCourse.afterAll refusedSum).workspace.engine
    idleCourse.GroundedAll refusedSum ∧ engine.lost = none ∧
      ¬ (List.range' 1 engine.device.buffers.size).Perm
        (engine.owned ++ engine.queued ++ engine.device.destroyed) := by
  decide +kernel

end ComputeArray
