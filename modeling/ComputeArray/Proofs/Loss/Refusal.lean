import ComputeArray.Proofs.Loss.Terminal
import ComputeArray.Workspace.Basic

/-!
# Computations without their device

A computation on an engine that has lost its device is compared with the same computation on the
same engine with its device (`Fares`): it fails because of the loss, or it goes as it would with the
device, which is then not called. If it fails, no array has changed. The comparison is put together
from the parts of a computation, as `Moves` is.
-/

set_option autoImplicit false

namespace ComputeArray

/-- What callers can see of an array and its copies. -/
def ArrayState.visible (array : ArrayState) :=
  (array.element, array.shape, array.strides, array.customStrides, array.count, array.storage,
    array.hostDirty, array.deviceDirty, array.version)

namespace Engine

/-- The same engine with its device, and with any queue and log. -/
def revived (engine : Engine) (pending : List (Nat × Nat)) (log : Array (Severity × String)) :
    Engine :=
  { engine with lost := none, pending, log }

/-- No array has changed, and no buffer. -/
structure Untouched (before after : Engine) : Prop where
  buffers : after.device.buffers = before.device.buffers
  arrays : ∀ buffer, (after.arrays.lookup buffer).map ArrayState.visible =
    (before.arrays.lookup buffer).map ArrayState.visible

instance : Std.Refl Untouched := ⟨fun _ ↦ ⟨rfl, fun _ ↦ rfl⟩⟩

instance : IsTrans Engine Untouched := ⟨fun _ _ _ hfirst hlast ↦
  ⟨hlast.buffers.trans hfirst.buffers,
    fun buffer ↦ (hlast.arrays buffer).trans (hfirst.arrays buffer)⟩⟩

/-- A relation that holds if nothing has changed. -/
class Tolerant (R : Engine → Engine → Prop) : Prop extends IsTrans Engine R where
  of_untouched : ∀ first last, Untouched first last → R first last

instance : Tolerant Untouched := ⟨fun _ _ ↦ id⟩

/-- Arrays may have changed. -/
def Changed (_ _ : Engine) : Prop := True

instance : IsTrans Engine Changed := ⟨fun _ _ _ _ _ ↦ trivial⟩

instance : Tolerant Changed := ⟨fun _ _ _ ↦ trivial⟩

theorem untouched_setArray {engine : Engine} {buffer : Nat} {array : ArrayState}
    (h : array.visible = (engine.array buffer).visible) :
    Untouched engine (engine.setArray buffer array) := by
  refine ⟨rfl, fun other ↦ ?_⟩
  rw [lookup_setArray, Option.map_map]
  cases hlookup : engine.arrays.lookup other with
  | none => rfl
  | some old =>
    rw [Option.map_some, Option.map_some, Function.comp_apply]
    split
    · next hother => rw [h, ← hother, array_of_lookup hlookup]
    · rfl

end Engine

open Engine

/-! ### The comparison -/

/-- States with an engine in them. -/
class Carrier (σ : Type) where
  engine : σ → Engine
  replace : Engine → σ → σ
  engine_replace : ∀ new s, engine (replace new s) = new

instance : Carrier Engine := ⟨id, fun new _ ↦ new, fun _ _ ↦ rfl⟩

instance : Carrier Workspace :=
  ⟨Workspace.engine, fun engine workspace ↦ { workspace with engine }, fun _ _ ↦ rfl⟩

section

variable {σ α β : Type} [Carrier σ]

namespace Carrier

def revive (pending : List (Nat × Nat)) (log : Array (Severity × String)) (s : σ) : σ :=
  replace ((engine s).revived pending log) s

def calls (s : σ) : Array Call := (engine s).device.calls

theorem calls_revive (pending : List (Nat × Nat)) (log : Array (Severity × String)) (s : σ) :
    calls (revive pending log s) = calls s := by
  rw [calls, revive, engine_replace]
  rfl

end Carrier

open Carrier

/-- How a computation fares without the device. It is refused because of the loss, or as it would be
with the device; or it is carried out as it would be with the device, and relates the engines before
and after. Neither way is the device called. -/
inductive Fares (R : Engine → Engine → Prop) (notice : LossNotice)
    (m : ExceptT Failure (StateM σ) α) (s : σ) : Prop where
  | refused (failure : Failure) (outcome : outcomeOf m s = .error failure)
    (untouched : Untouched (engine s) (engine (stateAfter m s)))
    (cause : failure = notice.failure ∨ ∀ pending log,
      outcomeOf m (revive pending log s) = .error failure ∧
        calls (stateAfter m (revive pending log s)) = calls s)
  | carriedOut (a : α) (outcome : outcomeOf m s = .ok a)
    (stranded : (engine (stateAfter m s)).Stranded notice)
    (same : calls (stateAfter m s) = calls s)
    (related : R (engine s) (engine (stateAfter m s)))
    (active : ∀ pending log, outcomeOf m (revive pending log s) = .ok a ∧
      ∃ pending' log', stateAfter m (revive pending log s) =
        revive pending' log' (stateAfter m s))

/-- The computation fares so whenever the device is lost and no read-back is under way. -/
def Barred (R : Engine → Engine → Prop) (m : ExceptT Failure (StateM σ) α) : Prop :=
  ∀ notice s, (engine s).Stranded notice → Fares R notice m s

/-- Without the device, the computation changes no array. -/
abbrev Idle (m : ExceptT Failure (StateM σ) α) : Prop := Barred Untouched m

variable {R : Engine → Engine → Prop} {notice : LossNotice} {s : σ}
  {m : ExceptT Failure (StateM σ) α} {f : α → ExceptT Failure (StateM σ) β}

/-- A sequence whose last part only fails if the first has changed no array. -/
theorem Fares.sequence {Q : Engine → Engine → Prop} [IsTrans Engine R] (hm : Fares Q notice m s)
    (hwider : ∀ first last, Q first last → R first last)
    (hf : ∀ a, outcomeOf m s = .ok a → (engine (stateAfter m s)).Stranded notice →
      Fares R notice (f a) (stateAfter m s))
    (hlast : ∀ a failure, outcomeOf m s = .ok a → Q (engine s) (engine (stateAfter m s)) →
      outcomeOf (f a) (stateAfter m s) = .error failure →
        Untouched (engine s) (engine (stateAfter m s))) :
    Fares R notice (m >>= f) s := by
  cases hm with
  | refused failure outcome untouched cause =>
    have hstate : stateAfter (m >>= f) s = stateAfter m s := by rw [stateAfter_bind, outcome]
    refine .refused failure (by rw [outcomeOf_bind, outcome]) (by rwa [hstate]) ?_
    rcases cause with hlost | hactive
    · exact .inl hlost
    · refine .inr fun pending log ↦ ?_
      obtain ⟨houtcome, hcalls⟩ := hactive pending log
      rw [outcomeOf_bind, stateAfter_bind, houtcome]
      exact ⟨rfl, hcalls⟩
  | carriedOut a outcome stranded same related active =>
    have hstate : stateAfter (m >>= f) s = stateAfter (f a) (stateAfter m s) :=
      stateAfter_bind_of_ok outcome f
    have houtcome : outcomeOf (m >>= f) s = outcomeOf (f a) (stateAfter m s) := by
      rw [outcomeOf_bind, outcome]
    -- On the active engine the second part starts next to where it starts here.
    have hactive (pending : List (Nat × Nat)) (log : Array (Severity × String)) :
        ∃ pending' log',
          outcomeOf (m >>= f) (revive pending log s) =
            outcomeOf (f a) (revive pending' log' (stateAfter m s)) ∧
          stateAfter (m >>= f) (revive pending log s) =
            stateAfter (f a) (revive pending' log' (stateAfter m s)) := by
      obtain ⟨hok, pending', log', hafter⟩ := active pending log
      refine ⟨pending', log', ?_, ?_⟩
      · rw [outcomeOf_bind, hok, hafter]
      · rw [stateAfter_bind, hok, hafter]
    cases hf a outcome stranded with
    | refused failure outcome' untouched cause =>
      refine .refused failure (houtcome.trans outcome') ?_ ?_
      · rw [hstate]
        exact trans_of Untouched (hlast a failure outcome related outcome') untouched
      · rcases cause with hlost | hrest
        · exact .inl hlost
        · refine .inr fun pending log ↦ ?_
          obtain ⟨pending', log', hsame, hafter⟩ := hactive pending log
          rw [hsame, hafter]
          exact ⟨(hrest pending' log').1, (hrest pending' log').2.trans same⟩
    | carriedOut b outcome' stranded' same' related' active' =>
      refine .carriedOut b (houtcome.trans outcome') (by rwa [hstate])
        (by rw [hstate]; exact same'.trans same) ?_ fun pending log ↦ ?_
      · rw [hstate]
        exact trans_of R (hwider _ _ related) related'
      · obtain ⟨pending', log', hsame, hafter⟩ := hactive pending log
        rw [hsame, hafter, hstate]
        exact active' pending' log'

/-- A sequence whose first part changes no array. -/
theorem Fares.bind [Tolerant R] (hm : Fares Untouched notice m s)
    (hf : ∀ a, outcomeOf m s = .ok a → (engine (stateAfter m s)).Stranded notice →
      Fares R notice (f a) (stateAfter m s)) :
    Fares R notice (m >>= f) s :=
  hm.sequence Tolerant.of_untouched hf fun _ _ _ hrelated _ ↦ hrelated

namespace Barred

section

variable [Tolerant R]

/-- A sequence of which only the last part may change arrays. -/
theorem bind (hm : Idle m) (hf : ∀ a, Barred R (f a)) : Barred R (m >>= f) :=
  fun notice s h ↦ (hm notice s h).bind fun a _ hstranded ↦ hf a notice _ hstranded

/-- A computation that leaves every state, and gives the same with the device. -/
theorem silent (hstate : ∀ s, stateAfter m s = s)
    (houtcome : ∀ s pending log, outcomeOf m (revive pending log s) = outcomeOf m s) :
    Barred R m := by
  intro notice s h
  cases hresult : outcomeOf m s with
  | error failure =>
    refine .refused failure hresult (by rw [hstate]; exact refl_of Untouched _)
      (.inr fun pending log ↦ ?_)
    rw [houtcome, hresult, hstate]
    exact ⟨rfl, calls_revive pending log s⟩
  | ok a =>
    have hrelated : R (engine s) (engine (stateAfter m s)) := by
      rw [hstate]
      exact Tolerant.of_untouched _ _ (refl_of Untouched _)
    refine .carriedOut a hresult (by rwa [hstate]) (by rw [hstate]) hrelated fun pending log ↦ ?_
    rw [houtcome, hresult, hstate, hstate]
    exact ⟨rfl, pending, log, rfl⟩

theorem pure (a : α) : Barred R (Pure.pure a : ExceptT Failure (StateM σ) α) :=
  silent (fun _ ↦ rfl) fun _ _ _ ↦ rfl

theorem throw (failure : Failure) :
    Barred R (MonadExcept.throw failure : ExceptT Failure (StateM σ) α) :=
  silent (fun _ ↦ rfl) fun _ _ _ ↦ rfl

theorem ofExcept (result : Except Failure α) :
    Barred R (MonadExcept.ofExcept result : ExceptT Failure (StateM σ) α) :=
  silent (stateAfter_ofExcept result) fun s pending log ↦ by
    rw [outcomeOf_ofExcept, outcomeOf_ofExcept]

/-- An action behind a check that may fail. -/
theorem guard {condition : Prop} [Decidable condition] (failure : Failure)
    {next : ExceptT Failure (StateM σ) α} (hnext : Barred R next) :
    Barred R (if condition then (do MonadExcept.throw failure; next) else next) := by
  split
  · exact .bind (.throw failure) fun _ ↦ hnext
  · exact hnext

end

theorem mapM (items : List α) (h : ∀ item ∈ items, Idle (f item)) : Idle (items.mapM f) := by
  induction items with
  | nil => exact .pure _
  | cons first rest ih =>
    rw [List.mapM_cons]
    exact .bind (h first List.mem_cons_self) fun _ ↦
      .bind (ih fun item hmem ↦ h item (List.mem_cons_of_mem first hmem)) fun _ ↦ .pure _

theorem forM {g : α → ExceptT Failure (StateM σ) PUnit} (items : List α)
    (h : ∀ item ∈ items, Idle (g item)) : Idle (items.forM g) := by
  induction items with
  | nil => exact .pure _
  | cons first rest ih =>
    change Idle (g first >>= fun _ ↦ rest.forM g)
    exact .bind (h first List.mem_cons_self) fun _ ↦
      ih fun item hmem ↦ h item (List.mem_cons_of_mem first hmem)

theorem filterMapM {g : α → ExceptT Failure (StateM σ) (Option β)} (items : List α)
    (h : ∀ item ∈ items, Idle (g item)) : Idle (items.filterMapM g) := by
  induction items with
  | nil => exact .pure _
  | cons first rest ih =>
    rw [List.filterMapM_cons]
    refine .bind (h first List.mem_cons_self) fun found ↦ ?_
    have hrest := ih fun item hmem ↦ h item (List.mem_cons_of_mem first hmem)
    cases found with
    | none => exact hrest
    | some b => exact hrest.bind fun _ ↦ .pure _

/-- What looks at the state first and takes from it only what it has in common with the active
one. -/
theorem get {g : σ → ExceptT Failure (StateM σ) α} (h : ∀ s, Barred R (g s))
    (hsame : ∀ s pending log, g (revive pending log s) = g s) :
    Barred R (MonadState.get >>= g) := by
  intro notice s hstranded
  have hhere (s : σ) : outcomeOf (MonadState.get >>= g) s = outcomeOf (g s) s ∧
      stateAfter (MonadState.get >>= g) s = stateAfter (g s) s := ⟨rfl, rfl⟩
  have hactive (pending : List (Nat × Nat)) (log : Array (Severity × String)) :
      outcomeOf (MonadState.get >>= g) (revive pending log s) =
          outcomeOf (g s) (revive pending log s) ∧
        stateAfter (MonadState.get >>= g) (revive pending log s) =
          stateAfter (g s) (revive pending log s) := by
    rw [(hhere _).1, (hhere _).2, hsame]
    exact ⟨rfl, rfl⟩
  cases h s notice s hstranded with
  | refused failure outcome untouched cause =>
    refine .refused failure outcome untouched (cause.imp_right fun hrest pending log ↦ ?_)
    rw [(hactive pending log).1, (hactive pending log).2]
    exact hrest pending log
  | carriedOut a outcome stranded same related active =>
    refine .carriedOut a outcome stranded same related fun pending log ↦ ?_
    rw [(hactive pending log).1, (hactive pending log).2]
    exact active pending log

/-- A failure that is passed on under another name keeps it if it is the loss. -/
theorem rethrow {rename : Failure → Failure} (hm : Barred R m)
    (hkeep : ∀ notice : LossNotice, rename notice.failure = notice.failure) :
    Barred R (tryCatch m fun failure ↦ MonadExcept.throw (rename failure)) := by
  intro notice s h
  have herror {s : σ} {failure : Failure} (houtcome : outcomeOf m s = .error failure) :
      outcomeOf (tryCatch m fun failure ↦ MonadExcept.throw (rename failure)) s =
          .error (rename failure) ∧
        stateAfter (tryCatch m fun failure ↦ MonadExcept.throw (rename failure)) s =
          stateAfter m s := by
    rw [outcomeOf_tryCatch, stateAfter_tryCatch, houtcome]
    exact ⟨rfl, rfl⟩
  have hok {s : σ} {a : α} (houtcome : outcomeOf m s = .ok a) :
      outcomeOf (tryCatch m fun failure ↦ MonadExcept.throw (rename failure)) s = .ok a ∧
        stateAfter (tryCatch m fun failure ↦ MonadExcept.throw (rename failure)) s =
          stateAfter m s := by
    rw [outcomeOf_tryCatch, stateAfter_tryCatch, houtcome]
    exact ⟨rfl, rfl⟩
  cases hm notice s h with
  | refused failure outcome untouched cause =>
    refine .refused (rename failure) (herror outcome).1 (by rwa [(herror outcome).2]) ?_
    rcases cause with rfl | hrest
    · exact .inl (hkeep notice)
    · refine .inr fun pending log ↦ ?_
      obtain ⟨houtcome, hcalls⟩ := hrest pending log
      rw [(herror houtcome).1, (herror houtcome).2]
      exact ⟨rfl, hcalls⟩
  | carriedOut a outcome stranded same related active =>
    refine .carriedOut a (hok outcome).1 (by rwa [(hok outcome).2]) (by rwa [(hok outcome).2])
      (by rwa [(hok outcome).2]) fun pending log ↦ ?_
    obtain ⟨houtcome, hstate⟩ := active pending log
    rw [(hok houtcome).1, (hok houtcome).2, (hok outcome).2]
    exact ⟨rfl, hstate⟩

end Barred

/-! ### Refusals -/

/-- Without the device, the computation fails and does nothing. -/
def Refuses (m : ExceptT Failure (StateM σ) α) : Prop :=
  ∀ notice s, (engine s).Stranded notice →
    outcomeOf m s = .error notice.failure ∧ stateAfter m s = s

namespace Refuses

theorem bind (hm : Refuses m) (f : α → ExceptT Failure (StateM σ) β) : Refuses (m >>= f) := by
  intro notice s h
  rw [outcomeOf_bind, stateAfter_bind, (hm notice s h).1, (hm notice s h).2]
  exact ⟨rfl, rfl⟩

theorem barred (hm : Refuses m) : Barred R m := by
  intro notice s h
  obtain ⟨houtcome, hstate⟩ := hm notice s h
  refine .refused notice.failure houtcome ?_ (.inl rfl)
  rw [hstate]
  exact refl_of Untouched _

end Refuses

end

end ComputeArray
