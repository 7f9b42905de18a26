import ComputeArray.Proofs.Lifetime.Orderly

/-!
# Actions that keep an engine orderly

`KeepsOrder P m Q` says that on an orderly engine with `P` the action extends the history and leaves
an orderly engine, also when it fails, with `Q` if it does not. Assertions may look at the history.
The rules follow the way actions are written.
-/

set_option autoImplicit false

namespace ComputeArray

open Engine

abbrev Assertion := History → Engine → Prop

/-- The engine has gone on to an orderly state, and the history with it. -/
structure Engine.Advances (history : History) (before : Engine) (later : History)
    (after : Engine) : Prop where
  calls : ∃ calls : List Call, after.device.calls.toList = before.device.calls.toList ++ calls ∧
    later = history.extend calls
  count : before.device.buffers.size ≤ after.device.buffers.size
  orderly : after.Orderly later

namespace Engine.Advances

variable {history middle later : History} {first between last : Engine}

/-- A change of the engine alone. -/
theorem of_device (horderly : last.Orderly history) (hdevice : last.device = first.device) :
    Advances history first history last :=
  ⟨⟨[], by rw [hdevice, List.append_nil], rfl⟩, Nat.le_of_eq (by rw [hdevice]), horderly⟩

theorem refl (h : first.Orderly history) : Advances history first history first :=
  of_device h rfl

theorem trans (hfirst : Advances history first middle between)
    (hlast : Advances middle between later last) : Advances history first later last := by
  obtain ⟨before, hbefore, rfl⟩ := hfirst.calls
  obtain ⟨after, hafter, rfl⟩ := hlast.calls
  exact ⟨⟨before ++ after, by rw [hafter, hbefore, List.append_assoc],
    (History.extend_append _ _ _).symm⟩, Nat.le_trans hfirst.count hlast.count, hlast.orderly⟩

theorem of_calm (h : first.Orderly history) (hcalm : Calm first last) :
    ∃ later, Advances history first later last ∧ Undisturbed history first later last := by
  obtain ⟨calls, hcalls, hundisturbed, horderly⟩ := h.calm hcalm
  exact ⟨_, ⟨⟨calls, hcalls, rfl⟩, hcalm.count, horderly⟩, hundisturbed⟩

theorem of_calls (calls : List Call)
    (hcalls : last.device.calls.toList = first.device.calls.toList ++ calls)
    (hcount : last.device.buffers.size = first.device.buffers.size)
    (horderly : last.Orderly (history.extend calls)) :
    Advances history first (history.extend calls) last :=
  ⟨⟨calls, hcalls, rfl⟩, Nat.le_of_eq hcount.symm, horderly⟩

end Engine.Advances

variable {α β : Type}

/-- From orderly engines with `P` the action leaves orderly engines, with `Q` if it succeeds. -/
def KeepsOrder (P : Assertion) (m : Action α) (Q : α → Assertion) : Prop :=
  ∀ history engine, engine.Orderly history → P history engine →
    ∃ later, Advances history engine later (stateAfter m engine) ∧
      ∀ a, outcomeOf m engine = .ok a → Q a later (stateAfter m engine)

/-- Calm changes do not touch the assertion. -/
def Stable (P : Assertion) : Prop :=
  ∀ history before later after, Undisturbed history before later after →
    P history before → P later after

namespace KeepsOrder

variable {P P' : Assertion} {Q Q' : α → Assertion} {R : β → Assertion} {m : Action α}
  {f : α → Action β}

theorem mono (h : KeepsOrder P m Q)
    (hP : ∀ history engine, engine.Orderly history → P' history engine → P history engine)
    (hQ : ∀ a history engine, engine.Orderly history → Q a history engine →
      Q' a history engine) : KeepsOrder P' m Q' := by
  intro history engine horderly hbefore
  obtain ⟨later, hadvances, hafter⟩ := h history engine horderly (hP _ _ horderly hbefore)
  exact ⟨later, hadvances, fun a ha ↦ hQ a _ _ hadvances.orderly (hafter a ha)⟩

theorem pre (h : KeepsOrder P m Q)
    (hP : ∀ history engine, engine.Orderly history → P' history engine → P history engine) :
    KeepsOrder P' m Q :=
  h.mono hP fun _ _ _ _ ↦ id

theorem post (h : KeepsOrder P m Q)
    (hQ : ∀ a history engine, engine.Orderly history → Q a history engine →
      Q' a history engine) : KeepsOrder P m Q' :=
  h.mono (fun _ _ _ ↦ id) hQ

theorem of_fact {fact : Prop} (h : fact → KeepsOrder P m Q) :
    KeepsOrder (fun history engine ↦ fact ∧ P history engine) m Q :=
  fun history engine horderly hP ↦ h hP.1 history engine horderly hP.2

theorem bind (hm : KeepsOrder P m Q) (hf : ∀ a, KeepsOrder (Q a) (f a) R) :
    KeepsOrder P (m >>= f) R := by
  intro history engine horderly hP
  obtain ⟨middle, hfirst, hQ⟩ := hm history engine horderly hP
  rw [stateAfter_bind, outcomeOf_bind]
  cases houtcome : outcomeOf m engine with
  | error failure => exact ⟨middle, hfirst, nofun⟩
  | ok a =>
    obtain ⟨later, hlast, hR⟩ := hf a middle _ hfirst.orderly (hQ a houtcome)
    exact ⟨later, hfirst.trans hlast, hR⟩

/-- What is known of all results of an action. -/
theorem and_fact {fact : α → Prop} (h : KeepsOrder P m Q)
    (hfact : ∀ engine a, outcomeOf m engine = .ok a → fact a) :
    KeepsOrder P m fun a history engine ↦ fact a ∧ Q a history engine := by
  intro history engine horderly hP
  obtain ⟨later, hadvances, hQ⟩ := h history engine horderly hP
  exact ⟨later, hadvances, fun a ha ↦ ⟨hfact engine a ha, hQ a ha⟩⟩

/-- An action that leaves every engine as it is. -/
theorem silent (hstate : ∀ engine, stateAfter m engine = engine) :
    KeepsOrder P m fun a history engine ↦ outcomeOf m engine = .ok a ∧ P history engine := by
  intro history engine horderly hP
  rw [hstate]
  exact ⟨history, .refl horderly, fun a ha ↦ ⟨ha, hP⟩⟩

theorem pure {a : α}
    (h : ∀ history engine, engine.Orderly history → P history engine → Q a history engine) :
    KeepsOrder P (Pure.pure a) Q := by
  intro history engine horderly hP
  exact ⟨history, .refl horderly, fun _ ha ↦ Except.ok.inj ha ▸ h _ _ horderly hP⟩

theorem done (a : α) : KeepsOrder P (Pure.pure a) fun _ ↦ P := pure fun _ _ _ ↦ id

theorem throw (failure : Failure) : KeepsOrder P (MonadExcept.throw failure) Q :=
  fun history _ horderly _ ↦ ⟨history, .refl horderly, nofun⟩

theorem of_silent (hstate : ∀ engine, stateAfter m engine = engine) :
    KeepsOrder P m fun _ ↦ P :=
  (silent hstate).post fun _ _ _ _ h ↦ h.2

theorem of_moves_eq (h : Moves Eq m) : KeepsOrder P m fun _ ↦ P :=
  of_silent fun engine ↦ (h engine).symm

theorem get_eq : KeepsOrder P (MonadState.get : Action Engine)
    fun found history engine ↦ found = engine ∧ P history engine :=
  (silent fun _ ↦ rfl).post fun _ _ _ _ h ↦ ⟨(Except.ok.inj h.1).symm, h.2⟩

theorem get : KeepsOrder P (MonadState.get : Action Engine) fun _ ↦ P := of_silent fun _ ↦ rfl

theorem array_eq (buffer : Nat) : KeepsOrder P (Action.array buffer)
    fun array history engine ↦ array = engine.array buffer ∧ P history engine :=
  (silent fun _ ↦ rfl).post fun _ _ _ _ h ↦ ⟨(Except.ok.inj h.1).symm, h.2⟩

theorem array (buffer : Nat) : KeepsOrder P (Action.array buffer) fun _ ↦ P :=
  of_silent fun _ ↦ rfl

theorem ofExcept_eq (result : Except Failure α) : KeepsOrder P (Action.ofExcept result)
    fun a history engine ↦ result = .ok a ∧ P history engine :=
  (silent (stateAfter_actionOfExcept result)).post fun _ _ _ _ h ↦
    ⟨(outcomeOf_actionOfExcept result _).symm.trans h.1, h.2⟩

theorem ofExcept (result : Except Failure α) :
    KeepsOrder P (Action.ofExcept result) fun _ ↦ P :=
  of_silent (stateAfter_actionOfExcept result)

theorem assertActive : KeepsOrder P Action.assertActive fun _ ↦ P :=
  of_silent stateAfter_assertActive

theorem ite {condition : Prop} [Decidable condition] {yes no : Action α}
    (hyes : condition → KeepsOrder P yes Q) (hno : ¬ condition → KeepsOrder P no Q) :
    KeepsOrder P (if condition then yes else no) Q := by
  split
  · next h => exact hyes h
  · next h => exact hno h

/-- An action behind a check that may fail. -/
theorem guard {condition : Prop} [Decidable condition] (failure : Failure)
    (h : KeepsOrder P m Q) :
    KeepsOrder P (if condition then (do MonadExcept.throw failure; m) else m) Q :=
  ite (fun _ ↦ @bind _ _ P (fun _ ↦ P) _ _ _ (throw failure) fun _ ↦ h) fun _ ↦ h

/-- A failure may be told in another way. -/
theorem renamed (h : KeepsOrder P m Q) (rename : Failure → Failure) :
    KeepsOrder P (tryCatch m fun failure ↦ MonadExcept.throw (rename failure)) Q := by
  intro history engine horderly hP
  obtain ⟨later, hadvances, hQ⟩ := h history engine horderly hP
  rw [stateAfter_tryCatch, outcomeOf_tryCatch]
  cases houtcome : outcomeOf m engine with
  | ok a => exact ⟨later, hadvances, fun _ h ↦ hQ _ (houtcome.trans h)⟩
  | error failure => exact ⟨later, hadvances, nofun⟩

theorem of_calm (hcalm : Moves Calm m)
    (hQ : ∀ history engine later a, engine.Orderly history → P history engine →
      Undisturbed history engine later (stateAfter m engine) → outcomeOf m engine = .ok a →
        Q a later (stateAfter m engine)) : KeepsOrder P m Q := by
  intro history engine horderly hP
  obtain ⟨later, hadvances, hundisturbed⟩ := Advances.of_calm horderly (hcalm engine)
  exact ⟨later, hadvances, fun a ha ↦ hQ _ _ _ a horderly hP hundisturbed ha⟩

/-- Calm actions keep what is stable. -/
theorem calm (hcalm : Moves Calm m) (hstable : Stable P) : KeepsOrder P m fun _ ↦ P :=
  of_calm hcalm fun _ _ _ _ _ hP hundisturbed _ ↦ hstable _ _ _ _ hundisturbed hP

theorem forM {g : α → Action PUnit} (items : List α)
    (h : ∀ item ∈ items, KeepsOrder P (g item) fun _ ↦ P) :
    KeepsOrder P (items.forM g) fun _ ↦ P := by
  induction items with
  | nil => exact done _
  | cons first rest ih =>
    change KeepsOrder P (g first >>= fun _ ↦ rest.forM g) _
    exact (h first List.mem_cons_self).bind fun _ ↦
      ih fun item hmem ↦ h item (List.mem_cons_of_mem first hmem)

/-- Results that stay good while further ones come in. -/
theorem filterMapM {g : α → Action (Option β)} {good : β → Assertion} (items : List α)
    (hgood : ∀ b, Stable (good b))
    (h : ∀ P, Stable P → ∀ item, KeepsOrder P (g item)
      fun found history engine ↦ P history engine ∧ ∀ b ∈ found, good b history engine)
    (hP : Stable P) : KeepsOrder P (items.filterMapM g)
      fun results history engine ↦ P history engine ∧ ∀ b ∈ results, good b history engine := by
  induction items generalizing P with
  | nil => exact pure fun _ _ _ hP ↦ ⟨hP, by simp⟩
  | cons first rest ih =>
    rw [List.filterMapM_cons]
    refine (h P hP first).bind fun found ↦ ?_
    cases found with
    | none => exact (ih hP).pre fun _ _ _ h ↦ h.1
    | some b =>
      have hkept : Stable fun history engine ↦ P history engine ∧ good b history engine :=
        fun history before later after hundisturbed hboth ↦
          ⟨hP _ _ _ _ hundisturbed hboth.1, hgood b _ _ _ _ hundisturbed hboth.2⟩
      refine ((ih hkept).pre fun _ _ _ h ↦ ⟨h.1, h.2 b rfl⟩).bind fun results ↦ ?_
      refine pure fun _ _ _ h ↦ ⟨h.1.1, fun other hmem ↦ ?_⟩
      rcases List.mem_cons.mp hmem with rfl | hmem
      · exact h.1.2
      · exact h.2 other hmem

end KeepsOrder

end ComputeArray
