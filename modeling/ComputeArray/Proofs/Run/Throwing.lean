import ComputeArray.Proofs.Run.Elementary

/-!
# What computations throw

`Throws` bounds the failures of a computation, whatever state it starts in; it is put together from
the parts of the computation as `Moves` is. A submission whose constants are numbers fails only if
the device is lost, the compiler refuses a source, or the device has no workgroups at all.
-/

set_option autoImplicit false

namespace ComputeArray

variable {σ α β : Type}

/-- All failures of the computation are among the expected ones. -/
def Throws (expected : Failure → Prop) (m : ExceptT Failure (StateM σ) α) : Prop :=
  ∀ s failure, outcomeOf m s = .error failure → expected failure

namespace Throws

variable {expected : Failure → Prop} {m : ExceptT Failure (StateM σ) α}
  {f : α → ExceptT Failure (StateM σ) β}

theorem pure (a : α) : Throws expected (Pure.pure a : ExceptT Failure (StateM σ) α) :=
  fun _ _ h ↦ by cases h

theorem get : Throws expected (MonadState.get : ExceptT Failure (StateM σ) σ) :=
  fun _ _ h ↦ by cases h

theorem update (change : σ → σ) :
    Throws expected (modify change : ExceptT Failure (StateM σ) PUnit) :=
  fun _ _ h ↦ by cases h

theorem throw {failure : Failure} (h : expected failure) :
    Throws expected (MonadExcept.throw failure : ExceptT Failure (StateM σ) α) := by
  rintro s _ hfailure
  cases hfailure
  exact h

theorem ofExcept {result : Except Failure α}
    (h : ∀ failure, result = .error failure → expected failure) :
    Throws expected (MonadExcept.ofExcept result : ExceptT Failure (StateM σ) α) := by
  intro s failure hfailure
  rw [outcomeOf_ofExcept] at hfailure
  exact h failure hfailure

theorem bind (hm : Throws expected m) (hf : ∀ a, Throws expected (f a)) :
    Throws expected (m >>= f) := by
  intro s failure h
  rw [outcomeOf_bind] at h
  cases houtcome : outcomeOf m s with
  | error first =>
    rw [houtcome] at h
    cases h
    exact hm s _ houtcome
  | ok a =>
    rw [houtcome] at h
    exact hf a _ failure h

theorem forM {g : α → ExceptT Failure (StateM σ) PUnit} (items : List α)
    (h : ∀ item ∈ items, Throws expected (g item)) : Throws expected (items.forM g) := by
  induction items with
  | nil => exact pure _
  | cons first rest ih =>
    change Throws expected (g first >>= fun _ ↦ rest.forM g)
    exact (h first (by simp)).bind fun _ ↦
      ih fun item hmem ↦ h item (List.mem_cons_of_mem first hmem)

theorem mapM (items : List α) (h : ∀ item ∈ items, Throws expected (f item)) :
    Throws expected (items.mapM f) := by
  induction items with
  | nil => exact pure _
  | cons first rest ih =>
    rw [List.mapM_cons]
    exact (h first (by simp)).bind fun _ ↦
      (ih fun item hmem ↦ h item (List.mem_cons_of_mem first hmem)).bind fun _ ↦ pure _

theorem filterMapM {g : α → ExceptT Failure (StateM σ) (Option β)} (items : List α)
    (h : ∀ item ∈ items, Throws expected (g item)) : Throws expected (items.filterMapM g) := by
  induction items with
  | nil => exact pure _
  | cons first rest ih =>
    rw [List.filterMapM_cons]
    refine (h first (by simp)).bind fun found ↦ ?_
    have hrest := ih fun item hmem ↦ h item (List.mem_cons_of_mem first hmem)
    cases found with
    | none => exact hrest
    | some b => exact hrest.bind fun _ ↦ pure _

end Throws

/-! ### Submissions -/

namespace Failure

/-- Failures of the device itself: it is lost, it refuses a source, or it has no workgroups. -/
def IsDeviceFailure (failure : Failure) : Prop :=
  failure.kind = .deviceLost ∨ failure.kind = .compilation ∨ failure.kind = .zeroDivision

end Failure

open Failure

theorem throws_assertActive : Throws IsDeviceFailure Action.assertActive := by
  refine .bind .get fun engine ↦ ?_
  split
  · exact .throw (.inl rfl)
  · exact .pure _

theorem throws_send (buffer : Nat) : Throws IsDeviceFailure (Action.send buffer) := by
  refine .bind (fun _ _ h ↦ by cases h) fun array ↦ ?_
  split
  · exact .pure _
  · exact .bind throws_assertActive fun _ ↦ .bind (fun _ _ h ↦ by cases h) fun _ _ _ h ↦ by cases h

theorem throws_createLayout (modes : List Mode) :
    Throws IsDeviceFailure (Action.createLayout modes) := by
  refine .bind throws_assertActive fun _ ↦ .bind .get fun engine ↦ ?_
  split
  · exact .pure _
  · exact .bind (fun _ _ h ↦ by cases h) fun _ ↦ .bind (.update _) fun _ ↦ .pure _

theorem throws_review (source : String) (messages : List (String × String)) :
    Throws IsDeviceFailure (Action.review source messages) := by
  induction messages with
  | nil => exact .pure _
  | cons message rest ih =>
    unfold Action.review
    split
    · exact .bind (.throw (.inr (.inl rfl))) fun _ ↦ .bind (.update _) fun _ ↦ ih
    · exact .bind (.update _) fun _ ↦ ih

theorem throws_buildPipeline (source : String) (layout : Nat)
    (constants : List (String × Value)) :
    Throws IsDeviceFailure (Action.buildPipeline source layout constants) := by
  refine .bind (.bind throws_assertActive fun _ ↦ .bind .get fun engine ↦ ?_)
    fun _ ↦ fun _ _ h ↦ by cases h
  split
  · exact .pure _
  · refine .bind (fun _ _ h ↦ by cases h) fun compiled ↦ ?_
    split
    · exact .throw (.inr (.inl rfl))
    · exact .bind (throws_review _ _) fun _ ↦ .bind (.update _) fun _ ↦ .pure _

theorem throws_pipelineFor (source signature : String) (layout : Nat)
    {constants : List (String × Value)} (h : TunedKey.check constants = .ok ()) :
    Throws IsDeviceFailure (Action.pipelineFor source signature layout constants) := by
  unfold Action.pipelineFor
  split
  · refine .bind .get fun engine ↦ ?_
    split
    · exact .pure _
    · exact .bind (throws_buildPipeline _ _ _) fun _ ↦ .bind (.update _) fun _ ↦ .pure _
  · refine .bind (.ofExcept fun failure hfailure ↦ ?_) fun _ ↦ .bind .get fun engine ↦ ?_
    · rw [h] at hfailure
      cases hfailure
    · split
      · exact .bind (.update _) fun _ ↦ .pure _
      · exact .bind (throws_buildPipeline _ _ _) fun _ ↦ .bind (.update _) fun _ ↦ .pure _

theorem throws_encode {dispatch : Dispatch} (h : TunedKey.check dispatch.constants = .ok ()) :
    Throws IsDeviceFailure (Action.encode dispatch) := by
  refine .bind (.bind (throws_createLayout _) fun _ ↦ .bind (throws_pipelineFor _ _ _ h) fun _ ↦
    .pure _) fun _ ↦ .bind .get fun _ ↦ .bind (.bind .get fun engine ↦ ?_) fun _ ↦ .pure _
  split
  · exact .bind (.throw (.inr (.inr rfl))) fun _ ↦ .pure _
  · exact .pure _

/-- Handing over and settling do not fail. -/
theorem throws_handOver {expected : Failure → Prop} (dispatches : List Dispatch)
    (copies : List (Nat × Nat)) (commands : List Command) :
    Throws expected (Action.handOver dispatches copies commands) := by
  have hmark (buffer : Nat) : Throws expected (Action.markDeviceDirty buffer) :=
    fun _ _ h ↦ by cases h
  exact .bind (.forM _ fun buffer _ ↦ hmark buffer) fun _ ↦
    .bind (.forM _ fun buffer _ ↦ hmark buffer) fun _ ↦ fun _ _ h ↦ by cases h

theorem throws_settle {expected : Failure → Prop} (serial : Nat) (helpers : List Nat) :
    Throws expected (Action.settle serial helpers) := by
  refine .bind (.update _) fun _ ↦ .bind .get fun engine ↦ ?_
  split
  · exact .bind (fun _ _ h ↦ by cases h) fun _ ↦ .update _
  · exact .pure _

/-- A submission whose constants may be part of a key fails by the device only. -/
theorem throws_submit {dispatches : List Dispatch} (helpers : List Nat)
    (copies : List (Nat × Nat))
    (h : ∀ dispatch ∈ dispatches, TunedKey.check dispatch.constants = .ok ()) :
    Throws IsDeviceFailure (Action.submit dispatches helpers copies) := by
  have hprepare : Throws IsDeviceFailure (Action.prepare dispatches copies) :=
    .bind (.bind (.forM _ fun buffer _ ↦ throws_send buffer) fun _ ↦ .update _) fun _ ↦
      .bind (.mapM _ fun dispatch hmem ↦ throws_encode (h dispatch hmem)) fun _ ↦
        .bind (.mapM _ fun _ _ ↦ .bind (throws_send _) fun _ ↦ .bind .get fun _ ↦ .pure _)
          fun _ ↦ .pure _
  exact .bind throws_assertActive fun _ ↦ .bind hprepare fun commands ↦
    .bind (throws_handOver _ _ _) fun serial ↦ .bind (throws_settle _ _) fun _ ↦ .pure _

end ComputeArray
