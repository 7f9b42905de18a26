import ComputeArray.Proofs.Lifetime.Operations
import ComputeArray.Proofs.Run.Steps

/-!
# Steps on live arrays

A step gives the buffers of some of its arrays to the queue (`Step.uses`). If these arrays are live,
the step leaves an orderly engine behind, whether it succeeds or fails.
-/

set_option autoImplicit false

namespace ComputeArray

open Engine

variable {α β : Type}

/-! ### Arrays used by steps -/

/-- The buffer of the array, or of the streams, that a name stands for. -/
def Handle.buffer : Handle → Nat
  | .array buffer => buffer
  | .generator state => state

/-- The buffer a name leads to, if it leads to one. -/
def Workspace.named (workspace : Workspace) (name : String) : List Nat :=
  ((workspace.names.lookup name).map Handle.buffer).toList

/-- The arrays a term is for an operation. -/
def Term.uses (workspace : Workspace) : Term → List Nat
  | .value given => Value.heldArrays [given]
  | .reference name => workspace.named name
  | .list _ => []

def Operands.uses (workspace : Workspace) (operands : Operands) : List Nat :=
  operands.arguments.flatMap (·.uses workspace) ++ operands.out.toList.flatMap workspace.named

/-- The arrays whose buffers the queue may be given when an array is made. -/
def Making.uses (workspace : Workspace) : Making → List Nat
  | .range arguments options =>
    arguments.flatMap (·.uses workspace) ++ options.flatMap (·.2.uses workspace)
  | .call _ operands => operands.uses workspace
  | .elementwise _ operands => operands.uses workspace
  | .reduce _ operands => operands.uses workspace
  | .arithmetic _ left right => left.uses workspace ++ right.uses workspace
  | .uniform generator _ => workspace.named generator
  | .normal generator _ => workspace.named generator
  | _ => []

/-- The arrays whose buffers a step may give to the queue. -/
def Step.uses (workspace : Workspace) : Step → List Nat
  | .make making _ => making.uses workspace
  | .set name _ _ => workspace.named name
  | .element name _ => workspace.named name
  | .elements name => workspace.named name
  | .loadBlocking name => workspace.named name
  | .skip generator => workspace.named generator
  | .submit dispatches copies =>
    dispatches.flatMap (·.bindings.flatMap fun binding ↦ workspace.named binding.1) ++
      copies.flatMap fun copy ↦ workspace.named copy.1 ++ workspace.named copy.2
  | _ => []

/-! ### Resolution -/

theorem append_subset_append {first second wider wider' : List α} (hfirst : first ⊆ wider)
    (hsecond : second ⊆ wider') : first ++ second ⊆ wider ++ wider' :=
  List.append_subset.mpr ⟨List.Subset.trans hfirst (List.subset_append_left _ _),
    List.Subset.trans hsecond (List.subset_append_right _ _)⟩

section Resolution

variable {workspace : Workspace}

theorem stateAfter_of_moves {σ : Type} {m : ExceptT Failure (StateM σ) α} (h : Moves Eq m) (s : σ) :
    stateAfter m s = s :=
  (h s).symm

theorem lookup_of_handle {name : String} {handle : Handle}
    (h : outcomeOf (Session.handle name) workspace = .ok handle) :
    workspace.names.lookup name = some handle := by
  rw [Session.handle, outcomeOf_bind_eq_ok] at h
  obtain ⟨found, hget, h⟩ := h
  cases hget
  cases hlookup : workspace.names.lookup name with
  | none =>
    rw [hlookup] at h
    cases h
  | some other =>
    rw [hlookup] at h
    cases h
    rfl

theorem lookup_of_array {name : String} {buffer : Nat}
    (h : outcomeOf (Session.array name) workspace = .ok buffer) :
    workspace.names.lookup name = some (.array buffer) := by
  rw [Session.array, outcomeOf_bind_eq_ok] at h
  obtain ⟨handle, hhandle, h⟩ := h
  cases handle with
  | array found =>
    cases h
    exact lookup_of_handle hhandle
  | generator state => cases h

theorem lookup_of_generator {name : String} {state : Nat}
    (h : outcomeOf (Session.generator name) workspace = .ok state) :
    workspace.names.lookup name = some (.generator state) := by
  rw [Session.generator, outcomeOf_bind_eq_ok] at h
  obtain ⟨handle, hhandle, h⟩ := h
  cases handle with
  | array buffer => cases h
  | generator found =>
    cases h
    exact lookup_of_handle hhandle

theorem mem_named_of_array {name : String} {buffer : Nat}
    (h : outcomeOf (Session.array name) workspace = .ok buffer) :
    buffer ∈ workspace.named name := by
  simp [Workspace.named, lookup_of_array h, Handle.buffer]

theorem mem_named_of_generator {name : String} {state : Nat}
    (h : outcomeOf (Session.generator name) workspace = .ok state) :
    state ∈ workspace.named name := by
  simp [Workspace.named, lookup_of_generator h, Handle.buffer]

theorem heldArrays_of_arrayValue {name : String} {value : Value}
    (h : outcomeOf (Session.arrayValue name) workspace = .ok value) :
    Value.heldArrays [value] ⊆ workspace.named name := by
  rw [Session.arrayValue, outcomeOf_bind_eq_ok] at h
  obtain ⟨buffer, hbuffer, h⟩ := h
  cases h
  exact List.cons_subset.mpr ⟨mem_named_of_array hbuffer, List.nil_subset _⟩

theorem heldArrays_of_resolve {term : Term} {value : Value}
    (h : outcomeOf (Session.resolve term) workspace = .ok value) :
    Value.heldArrays [value] ⊆ term.uses workspace := by
  cases term with
  | value given =>
    cases h
    exact List.Subset.refl _
  | reference name => exact heldArrays_of_arrayValue h
  | list items =>
    rw [Session.resolve, outcomeOf_bind_eq_ok] at h
    obtain ⟨values, -, h⟩ := h
    cases h
    exact List.nil_subset _

theorem heldArrays_of_resolveAll {terms : List Term} {values : List Value}
    (h : outcomeOf (Session.resolveAll terms) workspace = .ok values) :
    Value.heldArrays values ⊆ terms.flatMap (·.uses workspace) := by
  induction terms generalizing values with
  | nil =>
    cases h
    exact List.nil_subset _
  | cons term rest ih =>
    simp only [Session.resolveAll, outcomeOf_bind_eq_ok,
      stateAfter_of_moves (moves_resolve _)] at h
    obtain ⟨first, hfirst, later, hlater, h⟩ := h
    cases h
    rw [← List.singleton_append, Value.heldArrays_append, List.flatMap_cons]
    exact append_subset_append (heldArrays_of_resolve hfirst) (ih hlater)

theorem heldArrays_of_resolveNamed {terms : List (String × Term)} {values : List (String × Value)}
    (h : outcomeOf (Session.resolveNamed terms) workspace = .ok values) :
    Value.heldArrays (values.map Prod.snd) ⊆ terms.flatMap (·.2.uses workspace) := by
  induction terms generalizing values with
  | nil =>
    cases h
    exact List.nil_subset _
  | cons term rest ih =>
    simp only [Session.resolveNamed, outcomeOf_bind_eq_ok,
      stateAfter_of_moves (moves_resolve _)] at h
    obtain ⟨first, hfirst, later, hlater, h⟩ := h
    cases h
    rw [List.map_cons, ← List.singleton_append, Value.heldArrays_append, List.flatMap_cons]
    exact append_subset_append (heldArrays_of_resolve hfirst) (ih hlater)

theorem heldArrays_of_resolveArguments {terms : List Term} {values : List Value}
    (h : outcomeOf (Session.resolveArguments none terms) workspace = .ok values) :
    Value.heldArrays values ⊆ terms.flatMap (·.uses workspace) := by
  rw [Session.resolveArguments, outcomeOf_bind_eq_ok] at h
  obtain ⟨resolved, hresolved, h⟩ := h
  cases h
  exact heldArrays_of_resolveAll hresolved

theorem heldArrays_of_resolveOperands {operands : Operands} {resolved : List Value × Option Value}
    (h : outcomeOf (Session.resolveOperands none operands) workspace = .ok resolved) :
    Value.heldArrays (resolved.1 ++ resolved.2.toList) ⊆ operands.uses workspace := by
  simp only [Session.resolveOperands, outcomeOf_bind_eq_ok,
    stateAfter_of_moves (moves_resolveArguments _ _)] at h
  obtain ⟨arguments, harguments, h⟩ := h
  rw [Operands.uses]
  cases hout : operands.out with
  | none =>
    rw [hout] at h
    cases h
    rw [Value.heldArrays_append]
    exact append_subset_append (heldArrays_of_resolveArguments harguments) (List.nil_subset _)
  | some name =>
    simp only [hout, outcomeOf_bind_eq_ok] at h
    obtain ⟨value, hvalue, h⟩ := h
    cases h
    rw [Value.heldArrays_append]
    refine append_subset_append (heldArrays_of_resolveArguments harguments) ?_
    simpa using heldArrays_of_arrayValue hvalue

end Resolution

/-! ### Resolution of submissions -/

section Submissions

variable {workspace : Workspace}

/-- Results of computations that leave every state as it is. -/
theorem exists_of_silent_mapM {σ : Type} {f : α → ExceptT Failure (StateM σ) β} {items : List α}
    {s : σ} {results : List β} (hf : ∀ a, Moves Eq (f a))
    (h : outcomeOf (items.mapM f) s = .ok results) :
    ∀ result ∈ results, ∃ item ∈ items, outcomeOf (f item) s = .ok result := by
  induction items generalizing results with
  | nil =>
    cases h
    simp
  | cons first rest ih =>
    simp only [List.mapM_cons, outcomeOf_bind_eq_ok, stateAfter_of_moves (hf first),
      outcomeOf_pure, Except.ok.injEq] at h
    obtain ⟨result, hfirst, later, hlater, rfl⟩ := h
    refine List.forall_mem_cons.mpr ⟨⟨first, List.mem_cons_self, hfirst⟩, fun result hmem ↦ ?_⟩
    obtain ⟨item, hitem, hresult⟩ := ih hlater result hmem
    exact ⟨item, List.mem_cons_of_mem first hitem, hresult⟩

/-- A resolved dispatch binds the arrays its term names. -/
theorem mem_named_of_resolveDispatch {term : DispatchTerm} {dispatch : Dispatch}
    (h : outcomeOf (Session.resolveDispatch term) workspace = .ok dispatch) :
    ∀ binding ∈ dispatch.bindings, ∃ named ∈ term.bindings,
      binding.1.buffer ∈ workspace.named named.1 := by
  have hbinding (named : String × Term) : Moves Eq (do
      let buffer ← Session.array named.1
      let mode ← Session.resolve named.2
      return (Resource.array buffer, ← Session.ofExcept (Mode.ofValue mode)) :
        Session (Resource × Mode)) :=
    .bind (moves_array _) fun _ ↦ .bind (moves_resolve _) fun _ ↦ .bind (.ofExcept _) fun _ ↦
      .pure _
  rw [Session.resolveDispatch, outcomeOf_bind_eq_ok] at h
  obtain ⟨bindings, hbindings, h⟩ := h
  rw [outcomeOf_bind_eq_ok] at h
  obtain ⟨constants, -, h⟩ := h
  cases h
  intro binding hmem
  obtain ⟨named, hnamed, hresult⟩ := exists_of_silent_mapM hbinding hbindings binding hmem
  rw [outcomeOf_bind_eq_ok] at hresult
  obtain ⟨buffer, hbuffer, hresult⟩ := hresult
  simp only [outcomeOf_bind_eq_ok, outcomeOf_pure, Except.ok.injEq] at hresult
  obtain ⟨_, -, _, -, rfl⟩ := hresult
  exact ⟨named, hnamed, mem_named_of_array hbuffer⟩

theorem moves_resolveCopy (copy : String × String) : Moves Eq (do
    return (← Session.array copy.1, ← Session.array copy.2) : Session (Nat × Nat)) :=
  .bind (moves_array _) fun _ ↦ .bind (moves_array _) fun _ ↦ .pure _

/-- A submission uses the arrays its terms name. -/
theorem usedBy_subset_uses {terms : List DispatchTerm} {names : List (String × String)}
    {dispatches : List Dispatch} {copies : List (Nat × Nat)}
    (hdispatches : outcomeOf (terms.mapM Session.resolveDispatch) workspace = .ok dispatches)
    (hcopies : outcomeOf (names.mapM fun copy ↦ do
      return (← Session.array copy.1, ← Session.array copy.2)) workspace = .ok copies) :
    usedBy dispatches copies ⊆ (Step.submit terms names).uses workspace := by
  refine append_subset_append (fun buffer hmem ↦ ?_) fun buffer hmem ↦ ?_
  · obtain ⟨dispatch, hdispatch, hmem⟩ := List.mem_flatMap.mp hmem
    obtain ⟨binding, hbinding, rfl⟩ := List.mem_map.mp hmem
    obtain ⟨term, hterm, hresolved⟩ :=
      exists_of_silent_mapM (fun _ ↦ moves_resolveDispatch _) hdispatches dispatch hdispatch
    obtain ⟨named, hnamed, hbuffer⟩ := mem_named_of_resolveDispatch hresolved binding hbinding
    exact List.mem_flatMap.mpr ⟨term, hterm, List.mem_flatMap.mpr ⟨named, hnamed, hbuffer⟩⟩
  · obtain ⟨copy, hcopy, hmem⟩ := List.mem_flatMap.mp hmem
    obtain ⟨name, hname, hresolved⟩ := exists_of_silent_mapM moves_resolveCopy hcopies copy hcopy
    simp only [outcomeOf_bind_eq_ok, stateAfter_of_moves (moves_array _), outcomeOf_pure,
      Except.ok.injEq] at hresolved
    obtain ⟨source, hsource, target, htarget, rfl⟩ := hresolved
    refine List.mem_flatMap.mpr ⟨name, hname, ?_⟩
    simp only [List.mem_cons, List.not_mem_nil, or_false] at hmem
    rcases hmem with rfl | rfl
    · exact List.mem_append_left _ (mem_named_of_array hsource)
    · exact List.mem_append_right _ (mem_named_of_array htarget)

end Submissions

/-! ### Orderly workspaces -/

/-- The engine is orderly, and all names lead to buffers that exist. -/
structure Workspace.Orderly (history : History) (workspace : Workspace) : Prop where
  engine : workspace.engine.Orderly history
  named : ∀ entry ∈ workspace.names, entry.2.buffer ≤ workspace.engine.device.buffers.size

/-- From an orderly workspace the computation extends the history and leaves an orderly workspace,
also when it fails, with `Q` if it does not. -/
def KeepsOrderAt (history : History) (workspace : Workspace) (m : Session α)
    (Q : α → History → Workspace → Prop) : Prop :=
  workspace.Orderly history → ∃ later,
    Advances history workspace.engine later (stateAfter m workspace).engine ∧
      (stateAfter m workspace).Orderly later ∧
        ∀ a, outcomeOf m workspace = .ok a → Q a later (stateAfter m workspace)

/-- No more than order is kept. -/
abbrev Any : α → History → Workspace → Prop := fun _ _ _ ↦ True

namespace KeepsOrderAt

variable {history : History} {workspace : Workspace} {m : Session α} {f : α → Session β}
  {Q : α → History → Workspace → Prop} {R : β → History → Workspace → Prop} {buffers : List Nat}
  {action : Action α} {P : Assertion} {Q' : α → Assertion}

theorem bind (hm : KeepsOrderAt history workspace m Q)
    (hf : ∀ a later next, next.Orderly later → Q a later next → KeepsOrderAt later next (f a) R) :
    KeepsOrderAt history workspace (m >>= f) R := by
  intro horderly
  obtain ⟨middle, hfirst, hmiddle, hQ⟩ := hm horderly
  rw [stateAfter_bind, outcomeOf_bind]
  cases houtcome : outcomeOf m workspace with
  | error failure => exact ⟨middle, hfirst, hmiddle, nofun⟩
  | ok a =>
    obtain ⟨later, hlast, hlater, hR⟩ := hf a middle _ hmiddle (hQ a houtcome) hmiddle
    exact ⟨later, hfirst.trans hlast, hlater, hR⟩

/-- A computation that leaves the workspace as it is. -/
theorem silent (hm : Moves Eq m) :
    KeepsOrderAt history workspace m fun a later next ↦
      outcomeOf m workspace = .ok a ∧ later = history ∧ next = workspace := by
  intro horderly
  rw [stateAfter_of_moves hm]
  exact ⟨history, .refl horderly.engine, horderly, fun a ha ↦ ⟨ha, rfl, rfl⟩⟩

/-- Names and terms are looked up first. -/
theorem resolve (hm : Moves Eq m)
    (hf : ∀ a, outcomeOf m workspace = .ok a → KeepsOrderAt history workspace (f a) R) :
    KeepsOrderAt history workspace (m >>= f) R :=
  (silent hm).bind fun a _ _ _ h ↦ by
    obtain ⟨ha, rfl, rfl⟩ := h
    exact hf a ha

theorem of_moves_eq (hm : Moves Eq m) : KeepsOrderAt history workspace m Any := fun horderly ↦
  have ⟨later, hadvances, hlater, _⟩ := silent hm horderly
  ⟨later, hadvances, hlater, fun _ _ ↦ trivial⟩

theorem pure {a : α} (h : workspace.Orderly history → Q a history workspace) :
    KeepsOrderAt history workspace (Pure.pure a) Q := fun horderly ↦
  ⟨history, .refl horderly.engine, horderly, fun _ ha ↦ Except.ok.inj ha ▸ h horderly⟩

theorem act (h : KeepsOrder P action Q')
    (hP : workspace.Orderly history → P history workspace.engine) :
    KeepsOrderAt history workspace (Session.act action)
      fun a later next ↦ Q' a later next.engine := by
  intro horderly
  obtain ⟨later, hadvances, hQ⟩ := h history workspace.engine horderly.engine (hP horderly)
  refine ⟨later, hadvances, ⟨hadvances.orderly, fun entry hmem ↦ ?_⟩, hQ⟩
  exact Nat.le_trans (horderly.named entry hmem) hadvances.count

/-- An action that gives nothing to say about. -/
theorem perform {action : Action Unit} {Q : Unit → Assertion} (h : KeepsOrder P action Q)
    (hP : workspace.Orderly history → P history workspace.engine) :
    KeepsOrderAt history workspace (Session.perform action) Any :=
  (act h hP).bind fun _ _ _ _ _ ↦ pure fun _ ↦ trivial

/-- A calm action. -/
theorem calmly (hcalm : Moves Calm action) :
    KeepsOrderAt history workspace (Session.act action) Any :=
  act (@KeepsOrder.calm _ (fun _ _ ↦ True) _ hcalm fun _ _ _ _ _ ↦ id) fun _ ↦ trivial

/-- An action that only looks at the engine. -/
theorem silently (hsilent : Moves Eq action) :
    KeepsOrderAt history workspace (Session.act action) Any :=
  calmly (hsilent.mono fun _ _ heq ↦ heq ▸ .refl _)

theorem unbind (name : String) :
    KeepsOrderAt history workspace (modify (Workspace.unbind name)) Any := fun horderly ↦
  ⟨history, .refl horderly.engine, ⟨horderly.engine, fun entry hmem ↦
    horderly.named entry (List.mem_filter.mp hmem).1⟩, fun _ _ ↦ trivial⟩

theorem bindResult (name : Option String) (handle : Handle)
    (hhandle : handle.buffer ≤ workspace.engine.device.buffers.size) :
    KeepsOrderAt history workspace (Session.bindResult name handle) Any := by
  cases name with
  | none => exact pure fun _ ↦ trivial
  | some name =>
    intro horderly
    refine ⟨history, .refl horderly.engine, ⟨horderly.engine, fun entry hmem ↦ ?_⟩,
      fun _ _ ↦ trivial⟩
    rcases List.mem_append.mp hmem with hmem | hmem
    · exact horderly.named entry (List.mem_filter.mp hmem).1
    · obtain rfl := List.mem_singleton.mp hmem
      exact hhandle

end KeepsOrderAt

/-! ### Making arrays -/

section Steps

open KeepsOrderAt

variable {history : History} {workspace : Workspace}

theorem keepsOrderAt_made {action : Action Nat} {buffers : List Nat}
    (h : KeepsOrder (AllLive buffers) action fun made ↦ AllLive (made :: buffers))
    (hlive : ∀ buffer ∈ buffers, workspace.engine.Live buffer) :
    KeepsOrderAt history workspace (Session.act action)
      fun made _ next ↦ made ≤ next.engine.device.buffers.size :=
  act (h.post fun made _ _ horderly h ↦ horderly.le_of_live (h made List.mem_cons_self))
    fun _ ↦ hlive

theorem stable_le (buffer : Nat) : Stable fun _ engine ↦ buffer ≤ engine.device.buffers.size :=
  fun _ _ _ _ hundisturbed hle ↦ Nat.le_trans hle hundisturbed.calm.count

theorem allLive_singleton {engine : Engine} {buffer : Nat} (h : engine.Live buffer) :
    AllLive [buffer] history engine :=
  fun _ hmem ↦ List.mem_singleton.mp hmem ▸ h

/-- Names lead to buffers that exist. -/
theorem keepsOrderAt_array (name : String) :
    KeepsOrderAt history workspace (Session.array name)
      fun buffer _ next ↦ buffer ≤ next.engine.device.buffers.size := by
  intro horderly
  rw [stateAfter_of_moves (moves_array name)]
  exact ⟨history, .refl horderly.engine, horderly,
    fun buffer hbuffer ↦ horderly.named _ (mem_of_lookup (lookup_of_array hbuffer))⟩

theorem keepsOrderAt_make {making : Making}
    (hlive : ∀ buffer ∈ making.uses workspace, workspace.engine.Live buffer) :
    KeepsOrderAt history workspace (Session.make none making)
      fun made _ next ↦ made ≤ next.engine.device.buffers.size := by
  cases making with
  | layout shape elementName strides =>
    refine resolve (moves_resolve _) fun shape _ ↦ resolve (moves_resolve _) fun elementName _ ↦
      resolve (moves_resolve _) fun strides _ ↦ keepsOrderAt_made ?_ hlive
    exact (KeepsOrder.newArray _ _ _).post fun _ _ _ _ h ↦ h.2
  | full value shape elementName =>
    exact resolve (moves_resolve _) fun value _ ↦ resolve (moves_resolve _) fun shape _ ↦
      resolve (moves_resolve _) fun elementName _ ↦
        keepsOrderAt_made (KeepsOrder.full _ _ _) hlive
  | range arguments options =>
    refine resolve (moves_resolveArguments _ _) fun arguments harguments ↦
      resolve (moves_resolveNamed _) fun options hoptions ↦
        keepsOrderAt_made (KeepsOrder.range ?_) hlive
    rw [Value.heldArrays_append]
    exact append_subset_append (heldArrays_of_resolveArguments harguments)
      (heldArrays_of_resolveNamed hoptions)
  | table value =>
    exact resolve (moves_resolve _) fun value _ ↦ keepsOrderAt_made (KeepsOrder.ofTable _) hlive
  | call name operands =>
    exact resolve (moves_resolveOperands _ _) fun resolved hresolved ↦
      keepsOrderAt_made (KeepsOrder.callByName _ (heldArrays_of_resolveOperands hresolved)) hlive
  | elementwise tag operands =>
    refine resolve (moves_resolveOperands _ _) fun resolved hresolved ↦ ?_
    have hvalues := List.Subset.trans (Value.arrays_subset_heldArrays _)
      (heldArrays_of_resolveOperands hresolved)
    refine keepsOrderAt_made (KeepsOrder.elementwise _
      (List.Subset.trans (Value.arrays_mono (List.subset_append_left _ _)) hvalues)
      (Value.arrays_singleton_subset ?_ hvalues)) hlive
    cases resolved.2 <;> simp
  | reduce tag operands =>
    exact resolve (moves_resolveOperands _ _) fun resolved hresolved ↦
      keepsOrderAt_made (KeepsOrder.callReduce _ (heldArrays_of_resolveOperands hresolved)) hlive
  | arithmetic symbol left right =>
    refine resolve (moves_resolve _) fun left hleft ↦ resolve (moves_resolve _) fun right hright ↦
      keepsOrderAt_made (KeepsOrder.arithmetic _ ?_) hlive
    rw [← List.singleton_append, Value.heldArrays_append]
    exact append_subset_append (heldArrays_of_resolve hleft) (heldArrays_of_resolve hright)
  | named name => exact keepsOrderAt_array name
  | reshaped name extents =>
    refine (keepsOrderAt_array name).bind fun buffer later next _ hle ↦
      resolve (moves_resolveArguments _ _) fun extents _ ↦
        (act (KeepsOrder.calm (calm_reshape buffer extents) (stable_le buffer)) fun _ ↦ hle).bind
          fun _ _ _ _ hle ↦ pure fun _ ↦ hle
  | uniform generator elementName =>
    refine resolve (moves_generator _) fun state hstate ↦ resolve (moves_resolve _)
      fun elementName _ ↦ ?_
    have hdraw : KeepsOrder (AllLive [state]) (Action.drawUniform state elementName)
        fun made _ engine ↦ made ≤ engine.device.buffers.size :=
      (KeepsOrder.drawUniform elementName).post fun made _ _ horderly h ↦
        horderly.le_of_live (h made List.mem_cons_self)
    exact act hdraw fun _ ↦ allLive_singleton (hlive state (mem_named_of_generator hstate))
  | normal generator elementName =>
    refine resolve (moves_generator _) fun state hstate ↦ resolve (moves_resolve _)
      fun elementName _ ↦ act ((KeepsOrder.drawNormal elementName).post fun _ _ _ _ h ↦ h.1)
        fun _ ↦ ?_
    exact allLive_singleton (hlive state (mem_named_of_generator hstate))

/-! ### Steps -/

namespace Step

/-- Whether a step is carried out at once, whatever happens meanwhile. A caller may only retire what
is known to be done. -/
def isWhole (history : History) : Step → Bool
  | .load .. => false
  | .repeated .. => false
  | .synchronize blocking => blocking
  | .retire serial => serial ≤ history.observed
  | _ => true

end Step

/-- A calm action at the end of a step. -/
theorem keepsOrderAt_calm {action : Action Unit} (hcalm : Moves Calm action) :
    KeepsOrderAt history workspace (Session.perform action) Any :=
  (calmly hcalm).bind fun _ _ _ _ _ ↦ pure fun _ ↦ trivial

theorem keepsOrderAt_runSimple {step : Step} (hwhole : step.isWhole history = true)
    (hlive : ∀ buffer ∈ step.uses workspace, workspace.engine.Live buffer) :
    KeepsOrderAt history workspace (Session.runSimple none step) Any := by
  have hnamed {name : String} {buffer : Nat}
      (h : outcomeOf (Session.array name) workspace = .ok buffer)
      (hlive : ∀ buffer ∈ workspace.named name, workspace.engine.Live buffer) (later : History) :
      AllLive [buffer] later workspace.engine :=
    allLive_singleton (hlive buffer (mem_named_of_array h))
  cases step with
  | make making name =>
    exact (keepsOrderAt_make hlive).bind fun made _ _ _ hle ↦
      (bindResult name (.array made) hle).bind fun _ _ _ _ _ ↦ of_moves_eq (moves_describeArray _)
  | makeGenerator size seed entropy name =>
    exact resolve (moves_resolve _) fun size _ ↦ resolve (moves_resolve _) fun seed _ ↦
      resolve (moves_resolve _) fun entropy _ ↦
        (keepsOrderAt_made (KeepsOrder.newGenerator _ _ _) hlive).bind fun state _ _ _ hle ↦
          (bindResult name (.generator state) hle).bind fun _ _ _ _ _ ↦
            of_moves_eq (.bind .get fun _ ↦ .pure _)
  | drop name =>
    exact resolve (moves_handle _) fun _ _ ↦ (unbind name).bind fun _ _ _ _ _ ↦ pure fun _ ↦ trivial
  | describe name =>
    exact of_moves_eq (.bind (moves_array _) fun _ ↦ moves_describeArray _)
  | hostElements name =>
    exact of_moves_eq (.bind .get fun _ ↦ .bind (moves_array _) fun _ ↦ .pure _)
  | deviceBytes name => exact of_moves_eq (.bind (moves_array _) fun _ ↦ .bind .get fun _ ↦ .pure _)
  | poke name start bytes =>
    exact resolve (moves_array _) fun buffer _ ↦ keepsOrderAt_calm (calm_changeDevice
      (fun _ ↦ .of_eq (Device.calls_setBytes _ _ _)) fun _ ↦ Device.size_buffers_setBytes _ _ _)
  | set name value index =>
    exact resolve (moves_array _) fun buffer hbuffer ↦ resolve (moves_resolve _) fun value _ ↦
      resolve (moves_resolveAll _) fun index _ ↦
        perform (KeepsOrder.setValue value index) fun _ ↦ hnamed hbuffer hlive _
  | element name index =>
    exact resolve (moves_array _) fun buffer hbuffer ↦ resolve (moves_resolveAll _) fun index _ ↦
      (act (KeepsOrder.getElement index) fun _ ↦ hnamed hbuffer hlive _).bind
        fun _ _ _ _ _ ↦ pure fun _ ↦ trivial
  | hostElement name index =>
    exact resolve (moves_array _) fun buffer _ ↦ resolve (moves_resolveAll _) fun index _ ↦
      (silently (.bind (.array _) fun _ ↦ .ofExcept _)).bind
        fun _ _ _ _ _ ↦ pure fun _ ↦ trivial
  | elements name =>
    exact resolve (moves_array _) fun buffer hbuffer ↦
      (act KeepsOrder.readElements fun _ ↦ hnamed hbuffer hlive _).bind
        fun _ _ _ _ _ ↦ of_moves_eq (.bind .get fun _ ↦ .pure _)
  | send name => exact resolve (moves_array _) fun buffer _ ↦ keepsOrderAt_calm (calm_send buffer)
  | loadBlocking name =>
    exact resolve (moves_array _) fun buffer hbuffer ↦
      perform KeepsOrder.loadBlocking fun _ ↦ hnamed hbuffer hlive _
  | markDeviceDirty name =>
    exact resolve (moves_array _) fun buffer _ ↦ keepsOrderAt_calm (calm_markDeviceDirty buffer)
  | release name =>
    exact (keepsOrderAt_array name).bind fun buffer _ _ _ hle ↦
      perform (@KeepsOrder.release [] buffer nofun) fun _ ↦ ⟨hle, nofun⟩
  | load names during => cases hwhole
  | skip generator =>
    exact resolve (moves_generator _) fun state hstate ↦
      perform KeepsOrder.skipDraw fun _ ↦
        allLive_singleton (hlive state (mem_named_of_generator hstate))
  | describeGenerator generator =>
    exact of_moves_eq (.bind (moves_generator _) fun _ ↦ moves_describeGenerator _)
  | grid lanes => exact (silently (.grid lanes)).bind fun _ _ _ _ _ ↦ pure fun _ ↦ trivial
  | synchronize blocking =>
    cases hwhole
    exact perform (@KeepsOrder.synchronize []) fun _ ↦ nofun
  | retire serial =>
    exact perform (@KeepsOrder.retire [] serial) fun _ ↦ ⟨of_decide_eq_true hwhole, nofun⟩
  | destroy => exact perform (@KeepsOrder.destroy []) fun _ ↦ nofun
  | markLost arguments =>
    exact resolve (moves_resolveArguments _ _) fun arguments _ ↦
      perform (@KeepsOrder.markLost [] arguments) fun _ ↦ nofun
  | assertActive => exact keepsOrderAt_calm .assertActive
  | describeEngine => exact of_moves_eq (.bind .get fun _ ↦ .pure _)
  | describeCaches => exact of_moves_eq (.bind .get fun _ ↦ .pure _)
  | setCompiler compiler =>
    exact keepsOrderAt_calm (calm_changeDevice (fun _ ↦ .of_eq rfl) fun _ ↦ rfl)
  | createLayout modes =>
    exact resolve (moves_resolve _) fun modes _ ↦ (calmly (calm_createLayoutFor modes)).bind
      fun _ _ _ _ _ ↦ pure fun _ ↦ trivial
  | createModule source =>
    exact (calmly ((compiles_createModule source).mono fun _ _ ↦ .of_compiles)).bind
      fun _ _ _ _ _ ↦ pure fun _ ↦ trivial
  | createPipeline source modes constants =>
    exact resolve (moves_resolve _) fun modes _ ↦ resolve (moves_resolveNamed _) fun constants _ ↦
      (calmly (calm_createPipelineFor source modes constants)).bind
        fun _ _ _ _ _ ↦ pure fun _ ↦ trivial
  | submit dispatches copies =>
    refine resolve (.mapM _ fun _ _ ↦ moves_resolveDispatch _) fun resolved hresolved ↦
      resolve (.mapM _ fun _ _ ↦ moves_resolveCopy _) fun moves hmoves ↦ ?_
    exact (act (KeepsOrder.submit_of_live (usedBy_subset_uses hresolved hmoves)) fun _ ↦ hlive).bind
      fun _ _ _ _ _ ↦ pure fun _ ↦ trivial
  | repeated count steps => cases hwhole

end Steps

end ComputeArray
