import ComputeArray.Failure
import ComputeArray.Proofs.Lookup
import Mathlib.Control.Lawful
import Mathlib.Order.Defs.Unbundled

/-!
# Outcomes and states of computations

A computation that may fail is read as two functions of the state it starts in: what it gives, and
the state it leaves behind, also when it fails. The lemmas say how both compose. `Moves` says that
every state stands in a relation to the state a computation leaves; for a preorder it is inherited
from the parts of a computation.
-/

set_option autoImplicit false

namespace ComputeArray

variable {σ α β : Type}

/-- What a computation gives when it starts in a state. -/
def outcomeOf (m : ExceptT Failure (StateM σ) α) (s : σ) : Except Failure α := (m.run.run s).1

/-- The state a computation leaves behind, whether it fails or not. -/
def stateAfter (m : ExceptT Failure (StateM σ) α) (s : σ) : σ := (m.run.run s).2

@[simp] theorem outcomeOf_pure (a : α) (s : σ) :
    outcomeOf (pure a : ExceptT Failure (StateM σ) α) s = .ok a :=
  rfl

@[simp] theorem stateAfter_pure (a : α) (s : σ) :
    stateAfter (pure a : ExceptT Failure (StateM σ) α) s = s :=
  rfl

@[simp] theorem outcomeOf_throw (failure : Failure) (s : σ) :
    outcomeOf (throw failure : ExceptT Failure (StateM σ) α) s = .error failure :=
  rfl

@[simp] theorem stateAfter_throw (failure : Failure) (s : σ) :
    stateAfter (throw failure : ExceptT Failure (StateM σ) α) s = s :=
  rfl

@[simp] theorem outcomeOf_get (s : σ) :
    outcomeOf (get : ExceptT Failure (StateM σ) σ) s = .ok s :=
  rfl

@[simp] theorem stateAfter_get (s : σ) : stateAfter (get : ExceptT Failure (StateM σ) σ) s = s :=
  rfl

@[simp] theorem outcomeOf_modify (change : σ → σ) (s : σ) :
    outcomeOf (modify change : ExceptT Failure (StateM σ) PUnit) s = .ok ⟨⟩ :=
  rfl

@[simp] theorem stateAfter_modify (change : σ → σ) (s : σ) :
    stateAfter (modify change : ExceptT Failure (StateM σ) PUnit) s = change s :=
  rfl

@[simp] theorem outcomeOf_set (new s : σ) :
    outcomeOf (set new : ExceptT Failure (StateM σ) PUnit) s = .ok ⟨⟩ :=
  rfl

@[simp] theorem stateAfter_set (new s : σ) :
    stateAfter (set new : ExceptT Failure (StateM σ) PUnit) s = new :=
  rfl

@[simp] theorem outcomeOf_modifyGet (change : σ → α × σ) (s : σ) :
    outcomeOf (modifyGet change : ExceptT Failure (StateM σ) α) s = .ok (change s).1 :=
  rfl

@[simp] theorem stateAfter_modifyGet (change : σ → α × σ) (s : σ) :
    stateAfter (modifyGet change : ExceptT Failure (StateM σ) α) s = (change s).2 :=
  rfl

@[simp] theorem outcomeOf_ofExcept (result : Except Failure α) (s : σ) :
    outcomeOf (MonadExcept.ofExcept result : ExceptT Failure (StateM σ) α) s = result := by
  cases result <;> rfl

@[simp] theorem stateAfter_ofExcept (result : Except Failure α) (s : σ) :
    stateAfter (MonadExcept.ofExcept result : ExceptT Failure (StateM σ) α) s = s := by
  cases result <;> rfl

theorem outcomeOf_bind (m : ExceptT Failure (StateM σ) α)
    (f : α → ExceptT Failure (StateM σ) β) (s : σ) :
    outcomeOf (m >>= f) s =
      match outcomeOf m s with
      | .ok a => outcomeOf (f a) (stateAfter m s)
      | .error failure => .error failure := by
  unfold outcomeOf stateAfter
  simp only [ExceptT.run, bind, ExceptT.bind, ExceptT.mk, StateT.run, StateT.bind]
  rcases m s with ⟨_ | _, _⟩ <;> rfl

/-- A sequence succeeds if and only if both parts do. -/
theorem outcomeOf_bind_eq_ok {m : ExceptT Failure (StateM σ) α}
    {f : α → ExceptT Failure (StateM σ) β} {s : σ} {b : β} :
    outcomeOf (m >>= f) s = .ok b ↔
      ∃ a, outcomeOf m s = .ok a ∧ outcomeOf (f a) (stateAfter m s) = .ok b := by
  rw [outcomeOf_bind]
  cases outcomeOf m s <;> simp

theorem stateAfter_bind (m : ExceptT Failure (StateM σ) α)
    (f : α → ExceptT Failure (StateM σ) β) (s : σ) :
    stateAfter (m >>= f) s =
      match outcomeOf m s with
      | .ok a => stateAfter (f a) (stateAfter m s)
      | .error _ => stateAfter m s := by
  unfold outcomeOf stateAfter
  simp only [ExceptT.run, bind, ExceptT.bind, ExceptT.mk, StateT.run, StateT.bind]
  rcases m s with ⟨_ | _, _⟩ <;> rfl

theorem stateAfter_bind_of_ok {m : ExceptT Failure (StateM σ) α} {s : σ} {a : α}
    (h : outcomeOf m s = .ok a) (f : α → ExceptT Failure (StateM σ) β) :
    stateAfter (m >>= f) s = stateAfter (f a) (stateAfter m s) := by
  rw [stateAfter_bind, h]

/-- Not looking at what a computation gives does not change the state it leaves. -/
theorem stateAfter_discard (m : ExceptT Failure (StateM σ) α) (s : σ) :
    stateAfter (do let _ ← m) s = stateAfter m s := by
  rw [stateAfter_bind]
  cases outcomeOf m s with
  | error failure => rfl
  | ok a => rfl

theorem outcomeOf_discard_eq_error {m : ExceptT Failure (StateM σ) α} {s : σ} {failure : Failure}
    (h : outcomeOf (do let _ ← m) s = .error failure) : outcomeOf m s = .error failure := by
  rw [outcomeOf_bind] at h
  cases houtcome : outcomeOf m s with
  | error other =>
    rw [houtcome] at h
    cases h
    rfl
  | ok a =>
    rw [houtcome] at h
    cases h

/-- A list of computations succeeds if the first does and the others do after it. -/
theorem mapM_cons_of_ok {f : α → ExceptT Failure (StateM σ) β} {first : α} {rest : List α} {s : σ}
    {result : β} {results : List β} (hfirst : outcomeOf (f first) s = .ok result)
    (hrest : outcomeOf (rest.mapM f) (stateAfter (f first) s) = .ok results) :
    outcomeOf ((first :: rest).mapM f) s = .ok (result :: results) ∧
      stateAfter ((first :: rest).mapM f) s =
        stateAfter (rest.mapM f) (stateAfter (f first) s) := by
  rw [List.mapM_cons]
  simp only [outcomeOf_bind, stateAfter_bind, hfirst, hrest, outcomeOf_pure, stateAfter_pure,
    and_self]

/-- What a list of computations gives is given by one of them, from some state. -/
theorem exists_of_outcomeOf_mapM {f : α → ExceptT Failure (StateM σ) β} {items : List α} {s : σ}
    {results : List β} (h : outcomeOf (items.mapM f) s = .ok results) :
    ∀ result ∈ results, ∃ item ∈ items, ∃ start, outcomeOf (f item) start = .ok result := by
  induction items generalizing s results with
  | nil =>
    cases h
    simp
  | cons first rest ih =>
    simp only [List.mapM_cons, outcomeOf_bind_eq_ok, outcomeOf_pure, Except.ok.injEq] at h
    obtain ⟨result, hfirst, later, hlater, rfl⟩ := h
    intro result' hmem
    rcases List.mem_cons.mp hmem with rfl | hmem
    · exact ⟨first, by simp, s, hfirst⟩
    · obtain ⟨item, hitem, start, hstart⟩ := ih hlater result' hmem
      exact ⟨item, List.mem_cons_of_mem first hitem, start, hstart⟩

theorem stateAfter_tryCatch (m : ExceptT Failure (StateM σ) α)
    (handler : Failure → ExceptT Failure (StateM σ) α) (s : σ) :
    stateAfter (tryCatch m handler) s =
      match outcomeOf m s with
      | .ok _ => stateAfter m s
      | .error failure => stateAfter (handler failure) (stateAfter m s) := by
  unfold outcomeOf stateAfter
  simp only [tryCatch, tryCatchThe, MonadExceptOf.tryCatch, ExceptT.run, ExceptT.tryCatch,
    ExceptT.mk, bind, StateT.run, StateT.bind]
  rcases m s with ⟨_ | _, _⟩ <;> rfl

theorem outcomeOf_tryCatch (m : ExceptT Failure (StateM σ) α)
    (handler : Failure → ExceptT Failure (StateM σ) α) (s : σ) :
    outcomeOf (tryCatch m handler) s =
      match outcomeOf m s with
      | .ok a => .ok a
      | .error failure => outcomeOf (handler failure) (stateAfter m s) := by
  unfold outcomeOf stateAfter
  simp only [tryCatch, tryCatchThe, MonadExceptOf.tryCatch, ExceptT.run, ExceptT.tryCatch,
    ExceptT.mk, bind, StateT.run, StateT.bind]
  rcases m s with ⟨_ | _, _⟩ <;> rfl

/-- Computations without state succeed one after the other if and only if both do. -/
theorem bind_eq_ok {result : Except Failure α} {f : α → Except Failure β} {b : β} :
    result >>= f = .ok b ↔ ∃ a, result = .ok a ∧ f a = .ok b := by
  cases result with
  | error failure => simp [bind, Except.bind]
  | ok a => simp [bind, Except.bind]

/-- A computation behind a guard succeeds if the guard lets it. -/
theorem guarded_eq_ok {condition : Prop} [Decidable condition] {failure : Failure}
    {next : Unit → Except Failure α} {a : α} :
    (if condition then (do let r ← throw failure; next r) else next ()) = .ok a ↔
      ¬ condition ∧ next () = .ok a := by
  by_cases hcondition : condition
  · rw [if_pos hcondition]
    exact ⟨nofun, fun h ↦ absurd hcondition h.1⟩
  · rw [if_neg hcondition]
    exact ⟨fun h ↦ ⟨hcondition, h⟩, And.right⟩

theorem guard_eq_ok {condition : Prop} [Decidable condition] {failure : Failure} :
    (if condition then throw failure else pure () : Except Failure Unit) = .ok ⟨⟩ ↔
      ¬ condition := by
  by_cases hcondition : condition
  · rw [if_pos hcondition]
    exact ⟨nofun, fun h ↦ absurd hcondition h⟩
  · rw [if_neg hcondition]
    exact ⟨fun _ ↦ hcondition, fun _ ↦ rfl⟩

theorem eq_ok_iff {result : Except Failure α} {a : α} :
    result = .ok a ↔ result.toOption = some a := by
  cases result <;> simp [Except.toOption]

/-! ### Relations between the states before and after -/

/-- Every state stands in the relation to the one the computation leaves. -/
def Moves (R : σ → σ → Prop) (m : ExceptT Failure (StateM σ) α) : Prop :=
  ∀ s, R s (stateAfter m s)

namespace Moves

variable {R S : σ → σ → Prop} {m : ExceptT Failure (StateM σ) α}
  {f : α → ExceptT Failure (StateM σ) β}

theorem mono (h : Moves R m) (hwider : ∀ s t, R s t → S s t) : Moves S m :=
  fun s ↦ hwider s _ (h s)

/-- A computation that leaves every state as it is. -/
theorem silent [Std.Refl R] (h : ∀ s, stateAfter m s = s) : Moves R m := by
  intro s
  rw [h s]
  exact refl_of R s

theorem pure [Std.Refl R] (a : α) : Moves R (Pure.pure a : ExceptT Failure (StateM σ) α) :=
  silent fun _ ↦ rfl

theorem throw [Std.Refl R] (failure : Failure) :
    Moves R (MonadExcept.throw failure : ExceptT Failure (StateM σ) α) :=
  silent fun _ ↦ rfl

theorem get [Std.Refl R] : Moves R (MonadState.get : ExceptT Failure (StateM σ) σ) :=
  silent fun _ ↦ rfl

theorem ofExcept [Std.Refl R] (result : Except Failure α) :
    Moves R (MonadExcept.ofExcept result : ExceptT Failure (StateM σ) α) :=
  silent (stateAfter_ofExcept result)

theorem update {change : σ → σ} (h : ∀ s, R s (change s)) :
    Moves R (modify change : ExceptT Failure (StateM σ) PUnit) :=
  h

/-- A sequence that starts in one state. -/
theorem bindAt [IsTrans σ R] {s : σ} (hm : R s (stateAfter m s))
    (hf : ∀ a, outcomeOf m s = .ok a → R (stateAfter m s) (stateAfter (f a) (stateAfter m s))) :
    R s (stateAfter (m >>= f) s) := by
  rw [stateAfter_bind]
  cases houtcome : outcomeOf m s with
  | error failure => exact hm
  | ok a => exact trans_of R hm (hf a houtcome)

theorem bind [IsTrans σ R] (hm : Moves R m) (hf : ∀ a, Moves R (f a)) : Moves R (m >>= f) :=
  fun s ↦ bindAt (hm s) fun a _ ↦ hf a _

/-- A sequence whose second part is only reached with what the first part gives. -/
theorem bindOk [IsTrans σ R] (hm : Moves R m)
    (hf : ∀ a s, outcomeOf m s = .ok a → Moves R (f a)) : Moves R (m >>= f) :=
  fun s ↦ bindAt (hm s) fun a h ↦ hf a s h _

theorem tryCatch [IsTrans σ R] {handler : Failure → ExceptT Failure (StateM σ) α}
    (hm : Moves R m) (hhandler : ∀ failure, Moves R (handler failure)) :
    Moves R (MonadExcept.tryCatch m handler) := by
  intro s
  rw [stateAfter_tryCatch]
  cases outcomeOf m s with
  | ok a => exact hm s
  | error failure => exact trans_of R (hm s) (hhandler failure _)

theorem forM [Std.Refl R] [IsTrans σ R] {g : α → ExceptT Failure (StateM σ) PUnit}
    (items : List α) (h : ∀ item ∈ items, Moves R (g item)) : Moves R (items.forM g) := by
  induction items with
  | nil => exact pure _
  | cons first rest ih =>
    change Moves R (g first >>= fun _ ↦ rest.forM g)
    exact (h first (by simp)).bind fun _ ↦
      ih fun item hmem ↦ h item (List.mem_cons_of_mem first hmem)

theorem mapM [Std.Refl R] [IsTrans σ R] (items : List α)
    (h : ∀ item ∈ items, Moves R (f item)) : Moves R (items.mapM f) := by
  induction items with
  | nil => exact pure _
  | cons first rest ih =>
    rw [List.mapM_cons]
    exact (h first (by simp)).bind fun _ ↦
      (ih fun item hmem ↦ h item (List.mem_cons_of_mem first hmem)).bind fun _ ↦ pure _

theorem foldlM [Std.Refl R] [IsTrans σ R] {γ : Type} {g : β → γ → ExceptT Failure (StateM σ) β}
    (items : List γ) (start : β) (h : ∀ b, ∀ item ∈ items, Moves R (g b item)) :
    Moves R (items.foldlM g start) := by
  induction items generalizing start with
  | nil => exact pure _
  | cons first rest ih =>
    rw [List.foldlM_cons]
    exact (h start first (by simp)).bind fun next ↦
      ih next fun b item hmem ↦ h b item (List.mem_cons_of_mem first hmem)

theorem filterMapM [Std.Refl R] [IsTrans σ R]
    {g : α → ExceptT Failure (StateM σ) (Option β)} (items : List α)
    (h : ∀ item ∈ items, Moves R (g item)) : Moves R (items.filterMapM g) := by
  induction items with
  | nil => exact pure _
  | cons first rest ih =>
    rw [List.filterMapM_cons]
    refine (h first (by simp)).bind fun found ↦ ?_
    have hrest := ih fun item hmem ↦ h item (List.mem_cons_of_mem first hmem)
    cases found with
    | none => exact hrest
    | some b => exact hrest.bind fun _ ↦ pure _

end Moves

/-- What holds of each result of a list of computations, if later ones cannot spoil it: `I` is an
invariant of the states, and `R` relates the states before and after under which `Q` persists. -/
theorem forall₂_persisting_of_outcomeOf_mapM {I : σ → Prop} {R : σ → σ → Prop}
    {Q : σ → α → β → Prop} {f : α → ExceptT Failure (StateM σ) β} [Std.Refl R] [IsTrans σ R]
    (hmoves : ∀ a, Moves (fun s t ↦ I s → I t ∧ R s t) (f a))
    (hresult : ∀ a s b, I s → outcomeOf (f a) s = .ok b → Q (stateAfter (f a) s) a b)
    (hpersist : ∀ s t a b, R s t → Q s a b → Q t a b) {items : List α} {s : σ} {results : List β}
    (hs : I s) (h : outcomeOf (items.mapM f) s = .ok results) :
    (I (stateAfter (items.mapM f) s) ∧ R s (stateAfter (items.mapM f) s)) ∧
      List.Forall₂ (Q (stateAfter (items.mapM f) s)) items results := by
  induction items generalizing s results with
  | nil =>
    cases h
    exact ⟨⟨hs, refl_of R s⟩, .nil⟩
  | cons first rest ih =>
    simp only [List.mapM_cons, outcomeOf_bind_eq_ok, outcomeOf_pure, Except.ok.injEq] at h
    obtain ⟨result, hfirst, later, hlater, rfl⟩ := h
    obtain ⟨hmiddle, hmove⟩ := hmoves first s hs
    obtain ⟨⟨hlast, hmove'⟩, hrest⟩ := ih hmiddle hlater
    rw [(mapM_cons_of_ok hfirst hlater).2]
    exact ⟨⟨hlast, trans_of R hmove hmove'⟩,
      .cons (hpersist _ _ _ _ hmove' (hresult first s result hs hfirst)) hrest⟩

/-- What holds after each of a list of computations, if later ones cannot spoil it. -/
theorem forall_of_outcomeOf_forM {R : σ → σ → Prop} {Q : σ → α → Prop}
    {f : α → ExceptT Failure (StateM σ) PUnit} [Std.Refl R] [IsTrans σ R]
    (hmoves : ∀ a, Moves R (f a))
    (hresult : ∀ a s u, outcomeOf (f a) s = .ok u → Q (stateAfter (f a) s) a)
    (hpersist : ∀ s t a, R s t → Q s a → Q t a) {items : List α} {s : σ} {result : PUnit}
    (h : outcomeOf (items.forM f) s = .ok result) :
    ∀ item ∈ items, Q (stateAfter (items.forM f) s) item := by
  induction items generalizing s with
  | nil => simp
  | cons first rest ih =>
    have hsplit : (first :: rest).forM f = f first >>= fun _ ↦ rest.forM f := rfl
    rw [hsplit, outcomeOf_bind_eq_ok] at h
    obtain ⟨done, hfirst, hrest⟩ := h
    have hstate : stateAfter ((first :: rest).forM f) s =
        stateAfter (rest.forM f) (stateAfter (f first) s) := by
      rw [hsplit, stateAfter_bind, hfirst]
    intro item hmem
    rw [hstate]
    rcases List.mem_cons.mp hmem with rfl | hmem
    · exact hpersist _ _ _ (Moves.forM rest (fun item _ ↦ hmoves item) _)
        (hresult item s done hfirst)
    · exact ih hrest item hmem

end ComputeArray
