import ComputeArray.Proofs.Run.Decomposition
import ComputeArray.Workspace.Record

/-!
# Steps of a workspace are made of primitives

A step that runs to its end without giving way to others, and that does not touch the device behind
the engine's back, takes the engine through primitives only. `leads_steps` says so of whole runs.
-/

set_option autoImplicit false

namespace ComputeArray

open Primitive

variable {α β : Type} {allowed wider : Primitive → Prop}

namespace Making

/-- Whether making the array may store elements in it. -/
def Stores : Making → Prop
  | .full .. => True
  | .range .. => True
  | .table _ => True
  | .call name _ =>
    ∃ arguments : List Value, ∃ named : List (String × Value),
      (Action.construct? name arguments named).isSome
  | _ => False

end Making

namespace Step

/-- A step without others in between that leaves the device and its flags to the engine. -/
def IsDirect : Step → Prop
  | .load .. => False
  | .repeated .. => False
  | .poke .. => False
  | .markDeviceDirty _ => False
  | _ => True

/-- Whether the step may store elements in host copies. -/
def Stores : Step → Prop
  | .set .. => True
  | .makeGenerator .. => True
  | .make making _ => making.Stores
  | _ => False

end Step

/-- From every workspace, allowed primitives lead its engine to the one the computation leaves. -/
abbrev SessionMadeOf (allowed : Primitive → Prop) (m : Session α) : Prop :=
  Moves (fun before after ↦ Leads allowed before.engine after.engine) m

instance : Std.Refl fun before after : Workspace ↦ Leads allowed before.engine after.engine :=
  ⟨fun _ ↦ Leads.refl _⟩

instance : IsTrans Workspace fun before after ↦ Leads allowed before.engine after.engine :=
  ⟨fun _ _ _ ↦ Leads.trans⟩

namespace Moves

/-- A computation that leaves the engine of every workspace as it is. -/
theorem sameEngine {m : Session α}
    (h : ∀ workspace, (stateAfter m workspace).engine = workspace.engine) :
    SessionMadeOf allowed m := by
  intro workspace
  rw [h workspace]
  exact Leads.refl _

theorem act {action : Action α} (h : MadeOf allowed action) :
    SessionMadeOf allowed (Session.act action) :=
  fun workspace ↦ h workspace.engine

end Moves

/-! ### Names and terms -/

section Resolution

variable {R : Workspace → Workspace → Prop} [Std.Refl R] [IsTrans Workspace R]

theorem moves_handle (name : String) : Moves R (Session.handle name) := by
  refine .bind .get fun workspace ↦ ?_
  split
  · exact .pure _
  · exact .throw _

theorem moves_array (name : String) : Moves R (Session.array name) := by
  refine .bind (moves_handle name) fun handle ↦ ?_
  split
  · exact .pure _
  · exact .throw _

theorem moves_arrayValue (name : String) : Moves R (Session.arrayValue name) :=
  .bind (moves_array name) fun _ ↦ .bind .get fun _ ↦ .pure _

theorem moves_generator (name : String) : Moves R (Session.generator name) := by
  refine .bind (moves_handle name) fun handle ↦ ?_
  split
  · exact .pure _
  · exact .throw _

mutual

theorem moves_resolve (term : Term) : Moves R (Session.resolve term) := by
  cases term with
  | value value => exact .pure _
  | reference name => exact moves_arrayValue name
  | list items => exact .bind (moves_resolveAll items) fun _ ↦ .pure _

theorem moves_resolveAll (terms : List Term) : Moves R (Session.resolveAll terms) := by
  cases terms with
  | nil => exact .pure _
  | cons first rest =>
    exact .bind (moves_resolve first) fun _ ↦
      .bind (moves_resolveAll rest) fun _ ↦ .pure _

end

theorem moves_resolveNamed (terms : List (String × Term)) :
    Moves R (Session.resolveNamed terms) := by
  induction terms with
  | nil => exact .pure _
  | cons first rest ih =>
    exact .bind (moves_resolve _) fun _ ↦ .bind ih fun _ ↦ .pure _

theorem moves_resolveArguments (round : Option Nat) (arguments : List Term) :
    Moves R (Session.resolveArguments round arguments) := by
  refine .bind (moves_resolveAll arguments) fun values ↦ ?_
  cases round with
  | none => exact .pure _
  | some i => exact .pure _

theorem moves_resolveOperands (round : Option Nat) (operands : Operands) :
    Moves R (Session.resolveOperands round operands) := by
  refine .bind (moves_resolveArguments round operands.arguments) fun arguments ↦ ?_
  split
  · exact .pure _
  · exact .bind (moves_arrayValue _) fun _ ↦ .pure _

theorem moves_resolveDispatch (term : DispatchTerm) : Moves R (Session.resolveDispatch term) := by
  refine .bind (.mapM _ fun binding _ ↦ ?_) fun bindings ↦
    .bind (moves_resolveNamed _) fun _ ↦ .pure _
  exact .bind (moves_array _) fun _ ↦ .bind (moves_resolve _) fun _ ↦
    .bind (.ofExcept _) fun _ ↦ .pure _

theorem moves_describeArray (buffer : Nat) : Moves R (Session.describeArray buffer) :=
  .bind .get fun _ ↦ .bind (.ofExcept _) fun _ ↦ .pure _

theorem moves_describeGenerator (state : Nat) : Moves R (Session.describeGenerator state) :=
  .bind .get fun _ ↦ .bind (.ofExcept _) fun _ ↦ .pure _

end Resolution

theorem sessionMadeOf_bindResult (name : Option String) (handle : Handle) :
    SessionMadeOf allowed (Session.bindResult name handle) := by
  cases name with
  | none => exact .pure _
  | some name => exact .sameEngine fun _ ↦ rfl

theorem sessionMadeOf_perform {action : Action Unit} (h : MadeOf allowed action) :
    SessionMadeOf allowed (Session.perform action) :=
  .bind (.act h) fun _ ↦ .pure _

/-! ### Making arrays -/

theorem sessionMadeOf_make_of_not_stores (round : Option Nat) {making : Making}
    (h : ¬ making.Stores) : SessionMadeOf Computes (Session.make round making) := by
  cases making with
  | layout shape elementName strides =>
    exact .bind (moves_resolve _) fun _ ↦ .bind (moves_resolve _) fun _ ↦
      .bind (moves_resolve _) fun _ ↦ .act (madeOf_newArray _ _ _)
  | full value shape elementName => exact absurd trivial h
  | range arguments named => exact absurd trivial h
  | table value => exact absurd trivial h
  | call name operands =>
    refine .bind (moves_resolveOperands _ _) fun resolved ↦ .act ?_
    unfold Action.callByName
    cases hconstruct : Action.construct? name resolved.1 (Action.namedOutput resolved.2) with
    | none => exact madeOf_call _ _ _
    | some action => exact absurd ⟨_, _, by rw [hconstruct]; rfl⟩ h
  | elementwise tag operands =>
    exact .bind (moves_resolveOperands _ _) fun _ ↦ .act (madeOf_elementwise _ _ _)
  | reduce tag operands =>
    exact .bind (moves_resolveOperands _ _) fun _ ↦ .act (madeOf_callReduce _ _ _)
  | arithmetic symbol left right =>
    exact .bind (moves_resolve _) fun _ ↦ .bind (moves_resolve _) fun _ ↦
      .act (madeOf_arithmetic _ _ _)
  | named name => exact moves_array name
  | reshaped name extents =>
    refine .bind (moves_array _) fun buffer ↦
      .bind (moves_resolveArguments _ _) fun extents ↦ .bind (.act ?_) fun _ ↦ .pure _
    exact .single (.reshape buffer extents) ⟨trivial, id⟩ fun _ ↦ rfl
  | uniform generator elementName =>
    exact .bind (moves_generator _) fun _ ↦ .bind (moves_resolve _) fun _ ↦
      .act (madeOf_drawUniform _ _)
  | normal generator elementName =>
    exact .bind (moves_generator _) fun _ ↦ .bind (moves_resolve _) fun _ ↦
      .act (madeOf_drawNormal _ _)

theorem SessionMadeOf.proper {m : Session α} (h : SessionMadeOf Computes m) :
    SessionMadeOf Proper m :=
  h.mono fun _ _ hleads ↦ hleads.mono fun _ ↦ Computes.proper

theorem sessionMadeOf_make (round : Option Nat) (making : Making) :
    SessionMadeOf Proper (Session.make round making) := by
  by_cases hstores : making.Stores
  · cases making with
    | full value shape elementName =>
      exact .bind (moves_resolve _) fun _ ↦ .bind (moves_resolve _) fun _ ↦
        .bind (moves_resolve _) fun _ ↦ .act (madeOf_full _ _ _)
    | range arguments named =>
      exact .bind (moves_resolveArguments _ _) fun _ ↦
        .bind (moves_resolveNamed _) fun _ ↦ .act (madeOf_range _ _)
    | table value => exact .bind (moves_resolve _) fun _ ↦ .act (madeOf_ofTable _)
    | call name operands =>
      exact .bind (moves_resolveOperands _ _) fun _ ↦ .act (madeOf_callByName _ _ _)
    | _ => exact hstores.elim
  · exact (sessionMadeOf_make_of_not_stores round hstores).proper

/-! ### Steps -/

theorem readsPlain_of_resolveDispatch {term : DispatchTerm} {workspace : Workspace}
    {dispatch : Dispatch}
    (h : outcomeOf (Session.resolveDispatch term) workspace = .ok dispatch) :
    dispatch.ReadsPlain := by
  simp only [Session.resolveDispatch, outcomeOf_bind_eq_ok, outcomeOf_pure, Except.ok.injEq] at h
  obtain ⟨bindings, hbindings, constants, -, rfl⟩ := h
  intro buffer mode hmem
  obtain ⟨binding, -, start, hbinding⟩ := exists_of_outcomeOf_mapM hbindings _ hmem
  simp only [outcomeOf_bind_eq_ok, outcomeOf_pure, Except.ok.injEq, Prod.mk.injEq,
    reduceCtorEq, false_and, and_false, exists_false] at hbinding

theorem sessionMadeOf_submit (round : Option Nat) (dispatches : List DispatchTerm)
    (copies : List (String × String)) :
    SessionMadeOf Computes (Session.runSimple round (.submit dispatches copies)) := by
  refine .bindOk (.mapM _ fun _ _ ↦ moves_resolveDispatch _) fun resolved start hresolved ↦
    .bind (.mapM _ fun copy _ ↦ ?_) fun copies ↦ .bind (.act (madeOf_submit _ _ _ ?_)) fun _ ↦
      .pure _
  · exact .bind (moves_array _) fun _ ↦ .bind (moves_array _) fun _ ↦ .pure _
  · intro dispatch hmem
    obtain ⟨term, -, workspace, hterm⟩ := exists_of_outcomeOf_mapM hresolved dispatch hmem
    exact readsPlain_of_resolveDispatch hterm

theorem madeOf_modesFrom (modes : Value) : MadeOf Computes (Action.modesFrom modes) :=
  .bind .assertActive fun _ ↦ .ofExcept _

theorem madeOf_createLayoutFor (modes : Value) :
    MadeOf Computes (Action.createLayoutFor modes) := by
  refine .bind (madeOf_modesFrom _) fun modes ↦ ?_
  exact .single (.createLayout modes) ⟨trivial, id⟩ fun engine ↦
    (Engine.after_createLayout engine modes).symm

theorem madeOf_createPipelineFor (source : String) (modes : Value)
    (constants : List (String × Value)) :
    MadeOf Computes (Action.createPipelineFor source modes constants) := by
  refine .bind (madeOf_modesFrom _) fun modes ↦ .bind ?_ fun _ ↦ .pure _
  exact .single (.createPipeline source modes constants) ⟨trivial, id⟩ fun engine ↦
    (Engine.after_createPipeline engine source modes constants).symm

theorem madeOf_getElement (buffer : Nat) (index : List Value) :
    MadeOf Computes (Action.getElement buffer index) :=
  .bind (.single (.load buffer) ⟨trivial, id⟩ fun _ ↦ rfl) fun _ ↦
    .bind (.array _) fun _ ↦ .ofExcept _

theorem madeOf_readElements (buffer : Nat) : MadeOf Computes (Action.readElements buffer) :=
  .bind (.single (.loadBlocking buffer) ⟨trivial, id⟩ fun _ ↦ rfl) fun _ ↦
    .bind (.array _) fun _ ↦ .ofExcept _

theorem madeOf_createModule (source : String) : MadeOf Computes (Action.createModule source) := by
  exact .single (.createModule source) ⟨trivial, id⟩ fun engine ↦
    (Engine.after_createModule engine source).symm

theorem madeOf_destroy : MadeOf Computes Action.destroy :=
  .single .destroy ⟨trivial, id⟩ fun _ ↦ rfl

/-- A direct step that stores no elements is made of primitives that store none. -/
theorem sessionMadeOf_runSimple_of_not_stores (round : Option Nat) {step : Step}
    (hdirect : step.IsDirect) (hstores : ¬ step.Stores) :
    SessionMadeOf Computes (Session.runSimple round step) := by
  cases step with
  | make making name =>
    exact .bind (sessionMadeOf_make_of_not_stores round hstores) fun _ ↦
      .bind (sessionMadeOf_bindResult _ _) fun _ ↦ moves_describeArray _
  | makeGenerator size seed entropy name => exact absurd trivial hstores
  | drop name =>
    exact .bind (moves_handle _) fun _ ↦ .bind (.sameEngine fun _ ↦ rfl) fun _ ↦ .pure _
  | describe name =>
    exact .bind (moves_array _) fun _ ↦ moves_describeArray _
  | hostElements name =>
    exact .bind .get fun _ ↦ .bind (moves_array _) fun _ ↦ .pure _
  | deviceBytes name =>
    exact .bind (moves_array _) fun _ ↦ .bind .get fun _ ↦ .pure _
  | poke name start bytes => exact hdirect.elim
  | set name value index => exact absurd trivial hstores
  | element name index =>
    exact .bind (moves_array _) fun _ ↦ .bind (moves_resolveAll _) fun _ ↦
      .bind (.act (madeOf_getElement _ _)) fun _ ↦ .pure _
  | hostElement name index =>
    exact .bind (moves_array _) fun _ ↦ .bind (moves_resolveAll _) fun _ ↦
      .bind (.act (.bind (.array _) fun _ ↦ .ofExcept _)) fun _ ↦ .pure _
  | elements name =>
    exact .bind (moves_array _) fun _ ↦ .bind (.act (madeOf_readElements _)) fun _ ↦
      .bind .get fun _ ↦ .pure _
  | send name =>
    exact .bind (moves_array _) fun buffer ↦ sessionMadeOf_perform
      (.single (.send buffer) ⟨trivial, id⟩ fun _ ↦ rfl)
  | loadBlocking name =>
    exact .bind (moves_array _) fun buffer ↦ sessionMadeOf_perform
      (.single (.loadBlocking buffer) ⟨trivial, id⟩ fun _ ↦ rfl)
  | markDeviceDirty name => exact hdirect.elim
  | release name =>
    exact .bind (moves_array _) fun _ ↦ sessionMadeOf_perform (madeOf_release _)
  | load names during => exact hdirect.elim
  | skip name =>
    exact .bind (moves_generator _) fun _ ↦ sessionMadeOf_perform (madeOf_skipDraw _)
  | describeGenerator name =>
    exact .bind (moves_generator _) fun _ ↦ moves_describeGenerator _
  | grid lanes => exact .bind (.act (.grid _)) fun _ ↦ .pure _
  | synchronize blocking =>
    exact sessionMadeOf_perform (.single (.synchronize blocking) ⟨trivial, id⟩ fun _ ↦ rfl)
  | retire serial =>
    exact sessionMadeOf_perform (.single (.retire serial) ⟨trivial, id⟩ fun _ ↦ rfl)
  | destroy => exact sessionMadeOf_perform madeOf_destroy
  | markLost arguments =>
    exact .bind (moves_resolveArguments _ _) fun values ↦ sessionMadeOf_perform
      (.single (.markLost values) ⟨trivial, id⟩ fun _ ↦ rfl)
  | assertActive => exact sessionMadeOf_perform .assertActive
  | describeEngine => exact .bind .get fun _ ↦ .pure _
  | describeCaches => exact .bind .get fun _ ↦ .pure _
  | setCompiler compiler =>
    exact sessionMadeOf_perform (.single (.setCompiler compiler) ⟨trivial, id⟩ fun _ ↦ rfl)
  | createLayout modes =>
    exact .bind (moves_resolve _) fun _ ↦ .bind (.act (madeOf_createLayoutFor _))
      fun _ ↦ .pure _
  | createModule source => exact .bind (.act (madeOf_createModule _)) fun _ ↦ .pure _
  | createPipeline source modes constants =>
    exact .bind (moves_resolve _) fun _ ↦ .bind (moves_resolveNamed _) fun _ ↦
      .bind (.act (madeOf_createPipelineFor _ _ _)) fun _ ↦ .pure _
  | submit dispatches copies => exact sessionMadeOf_submit round dispatches copies
  | repeated count steps => exact hdirect.elim

/-- A direct step is made of proper primitives. -/
theorem sessionMadeOf_runSimple (round : Option Nat) {step : Step} (hdirect : step.IsDirect) :
    SessionMadeOf Proper (Session.runSimple round step) := by
  by_cases hstores : step.Stores
  · cases step with
    | make making name =>
      exact .bind (sessionMadeOf_make round making) fun _ ↦
        .bind (sessionMadeOf_bindResult _ _) fun _ ↦ moves_describeArray _
    | makeGenerator size seed entropy name =>
      exact .bind (moves_resolve _) fun _ ↦ .bind (moves_resolve _) fun _ ↦
        .bind (moves_resolve _) fun _ ↦ .bind (.act (madeOf_newGenerator _ _ _)) fun _ ↦
          .bind (sessionMadeOf_bindResult _ _) fun _ ↦ .bind .get fun _ ↦ .pure _
    | set name value index =>
      exact .bind (moves_array _) fun _ ↦ .bind (moves_resolve _) fun _ ↦
        .bind (moves_resolveAll _) fun _ ↦ sessionMadeOf_perform (madeOf_setValue _ _ _)
    | _ => exact hstores.elim
  · exact (sessionMadeOf_runSimple_of_not_stores round hdirect hstores).proper

theorem run_eq_runSimple (round : Option Nat) {step : Step} (hdirect : step.IsDirect) :
    Session.run round step = Session.runSimple round step := by
  cases step with
  | load names during => exact hdirect.elim
  | repeated count steps => exact hdirect.elim
  | _ => rfl

/-! ### Steps that hold further steps -/

/-- Any primitive at all. -/
def Primitive.Any : Primitive → Prop := fun _ ↦ True

theorem madeOf_startLoad (buffer : Nat) : MadeOf Any (Action.startLoad buffer) := by
  exact .single (.startLoad buffer) trivial fun engine ↦ (Engine.after_startLoad engine buffer).symm

theorem leads_collect (workspace : Workspace) :
    Leads Computes workspace.engine workspace.collect.engine :=
  ⟨[.collect (workspace.arrays.map Prod.snd) (workspace.generators.map Prod.snd)],
    by simp [Computes, Proper, Stores], rfl⟩

theorem sessionMadeOf_takeCalls (count : Nat) : SessionMadeOf Any (Session.takeCalls count) :=
  .bind .get fun _ ↦ .bind (.act (.single (.replaceCalls _) trivial fun _ ↦ rfl)) fun _ ↦
    .pure _

theorem sessionMadeOf_attempt {action : Action α} (h : MadeOf allowed action) :
    SessionMadeOf allowed (Session.attempt action) :=
  .act h

/-- What holds of all parts of a step holds of the step, whatever steps it holds: they are of the
kind `P` if the step is. -/
theorem moves_run_of {R : Workspace → Workspace → Prop} {P : Step → Prop} [Std.Refl R]
    [IsTrans Workspace R]
    (hrequest : ∀ buffer, Moves R (Session.act (Action.requestLoad buffer)))
    (hstart : ∀ buffer, Moves R (Session.attempt (Action.startLoad buffer)))
    (hfinish : ∀ buffer, Moves R (Session.act (Action.finishLoad buffer)))
    (hcollect : ∀ workspace, R workspace workspace.collect)
    (hduring : ∀ names during, P (.load names during) → ∀ step ∈ during, P step)
    (hrepeated : ∀ count steps, P (.repeated count steps) → ∀ step ∈ steps, P step)
    (hsimple : ∀ round step, P step → Session.run round step = Session.runSimple round step →
      Moves R (Session.runSimple round step))
    (hrounds : ∀ rounds : Session (List Report), Moves R rounds → Moves R (do
      let start ← Session.callCount
      let last ← rounds
      return Answer.rounds last (Session.countCalls (← Session.takeCalls start))))
    (round : Option Nat) {step : Step} (h : P step) : Moves R (Session.run round step) := by
  refine Session.run.induct (fun round step ↦ P step → Moves R (Session.run round step))
    (fun round steps ↦ (∀ step ∈ steps, P step) → Moves R (Session.runAll round steps))
    ?_ ?_ ?_ ?_ ?_ round step h
  · intro round names during ih hload
    unfold Session.run
    refine .bind (.mapM _ fun name _ ↦ moves_array name) fun buffers ↦
      .bind (.forM _ fun buffer _ ↦ hrequest buffer) fun _ ↦
        .bind (.mapM _ fun buffer _ ↦ hstart buffer) fun outcomes ↦ ?_
    have hend : Moves R (buffers.eraseDups.forM fun buffer ↦
        Session.act (Action.finishLoad buffer)) := .forM _ fun buffer _ ↦ hfinish buffer
    dsimp only
    split
    · refine .bind (ih (hduring names during hload)) fun reports ↦ .bind hend fun _ ↦ ?_
      split
      · exact .throw _
      · exact .pure _
    · refine .bind (.pure _) fun reports ↦ .bind hend fun _ ↦ ?_
      split
      · exact .throw _
      · exact .pure _
  · intro round count steps ih hsteps
    unfold Session.run
    exact hrounds _ (.foldlM _ _ fun _ i _ ↦ ih i (hrepeated count steps hsteps))
  · intro round step hload hrepeated hstep
    have hrun : Session.run round step = Session.runSimple round step := by
      cases step with
      | load names during => exact absurd rfl (hload names during)
      | repeated count steps => exact absurd rfl (hrepeated count steps)
      | _ => rfl
    rw [hrun]
    exact hsimple round step hstep hrun
  · intro round _
    exact .pure _
  · intro round step rest ihstep ihrest hsteps
    unfold Session.runAll
    refine .bind (fun workspace ↦ ?_) fun _ ↦
      .bind (ihrest fun later hmem ↦ hsteps later (List.mem_cons_of_mem step hmem)) fun _ ↦ .pure _
    exact trans_of R (ihstep (hsteps step List.mem_cons_self) workspace) (hcollect _)

/-- What holds of the parts of all steps holds of every step. -/
theorem moves_run {R : Workspace → Workspace → Prop} [Std.Refl R] [IsTrans Workspace R]
    (hrequest : ∀ buffer, Moves R (Session.act (Action.requestLoad buffer)))
    (hstart : ∀ buffer, Moves R (Session.attempt (Action.startLoad buffer)))
    (hfinish : ∀ buffer, Moves R (Session.act (Action.finishLoad buffer)))
    (hcollect : ∀ workspace, R workspace workspace.collect)
    (hsimple : ∀ round step, Session.run round step = Session.runSimple round step →
      Moves R (Session.runSimple round step))
    (hrounds : ∀ rounds : Session (List Report), Moves R rounds → Moves R (do
      let start ← Session.callCount
      let last ← rounds
      return Answer.rounds last (Session.countCalls (← Session.takeCalls start))))
    (round : Option Nat) (step : Step) : Moves R (Session.run round step) :=
  moves_run_of (P := fun _ ↦ True) hrequest hstart hfinish hcollect (fun _ _ _ _ _ ↦ trivial)
    (fun _ _ _ _ _ ↦ trivial) (fun round step _ ↦ hsimple round step) hrounds round trivial

namespace Primitive

/-- Whether the primitive leaves the trace of the device to the device. -/
def KeepsTrace : Primitive → Prop
  | replaceCalls _ => False
  | _ => True

theorem Proper.keepsTrace {primitive : Primitive} (h : primitive.Proper) :
    primitive.KeepsTrace := by
  cases primitive with
  | replaceCalls calls => exact h
  | _ => trivial

end Primitive

/-- A step that holds no others is made of primitives, also if it acts behind the engine's back. -/
theorem sessionMadeOf_runSimple_keepsTrace (round : Option Nat) (step : Step) :
    SessionMadeOf KeepsTrace (Session.runSimple round step) := by
  by_cases hdirect : step.IsDirect
  · exact (sessionMadeOf_runSimple round hdirect).mono fun _ _ hleads ↦
      hleads.mono fun _ ↦ Proper.keepsTrace
  · cases step with
    | load names during => exact .pure _
    | repeated count steps => exact .pure _
    | poke name start bytes =>
      exact .bind (moves_array _) fun buffer ↦
        sessionMadeOf_perform (.single (.poke buffer start bytes) trivial fun _ ↦ rfl)
    | markDeviceDirty name =>
      exact .bind (moves_array _) fun buffer ↦
        sessionMadeOf_perform (.single (.markDeviceDirty buffer) trivial fun _ ↦ rfl)
    | _ => exact absurd trivial hdirect

/-- Every step is made of primitives, whatever steps it holds. -/
theorem sessionMadeOf_run (round : Option Nat) (step : Step) :
    SessionMadeOf Any (Session.run round step) := by
  refine moves_run (fun buffer ↦ .act (.single (.requestLoad buffer) trivial fun _ ↦ rfl))
    (fun buffer ↦ sessionMadeOf_attempt (madeOf_startLoad buffer))
    (fun buffer ↦ .act (.single (.finishLoad buffer) trivial fun _ ↦ rfl))
    (fun workspace ↦ (leads_collect workspace).mono fun _ _ ↦ trivial)
    (fun round step _ ↦ (sessionMadeOf_runSimple_keepsTrace round step).mono fun _ _ hleads ↦
      hleads.mono fun _ _ ↦ trivial) (fun rounds h ↦ ?_) round step
  exact .bind (.bind .get fun _ ↦ .pure _) fun start ↦ .bind h fun last ↦
    .bind (sessionMadeOf_takeCalls start) fun _ ↦ .pure _

/-! ### Runs -/

namespace Workspace

/-- The workspace after a step and the collection that follows it. -/
def afterStep (workspace : Workspace) (step : Step) : Workspace :=
  ((record step).run workspace).2

/-- The workspace after steps carried out in turn. -/
def afterSteps (workspace : Workspace) (steps : List Step) : Workspace :=
  steps.foldl afterStep workspace

/-- The records of a run are made on the way to the workspace after its steps. -/
theorem run_mapM_record (steps : List Step) (workspace : Workspace) :
    (steps.mapM record).run workspace =
      (recordAll steps workspace, workspace.afterSteps steps) := by
  refine Prod.ext rfl ?_
  induction steps generalizing workspace with
  | nil => rfl
  | cons step rest ih =>
    rw [List.mapM_cons]
    exact ih (workspace.afterStep step)

theorem afterStep_eq (workspace : Workspace) (step : Step) :
    workspace.afterStep step = (stateAfter (Session.run none step) workspace).collect :=
  rfl

end Workspace

theorem leads_step_of_not_stores {step : Step} (hdirect : step.IsDirect)
    (hstores : ¬ step.Stores) (workspace : Workspace) :
    Leads Computes workspace.engine (workspace.afterStep step).engine := by
  rw [Workspace.afterStep_eq, run_eq_runSimple none hdirect]
  exact (sessionMadeOf_runSimple_of_not_stores none hdirect hstores workspace).trans
    (leads_collect _)

theorem leads_step {step : Step} (hdirect : step.IsDirect) (workspace : Workspace) :
    Leads Proper workspace.engine (workspace.afterStep step).engine := by
  rw [Workspace.afterStep_eq, run_eq_runSimple none hdirect]
  exact (sessionMadeOf_runSimple none hdirect workspace).trans
    ((leads_collect _).mono fun _ ↦ Computes.proper)

/-- A run takes the engine through primitives. -/
theorem leads_any_steps (steps : List Step) (workspace : Workspace) :
    Leads Any workspace.engine (workspace.afterSteps steps).engine := by
  induction steps generalizing workspace with
  | nil => exact .refl _
  | cons step rest ih =>
    have hstep : Leads Any workspace.engine (workspace.afterStep step).engine :=
      (sessionMadeOf_run none step workspace).trans
        ((leads_collect _).mono fun _ _ ↦ trivial)
    exact hstep.trans (ih _)

/-- A run of direct steps takes the engine through proper primitives. -/
theorem leads_steps {steps : List Step} (hdirect : ∀ step ∈ steps, step.IsDirect)
    (workspace : Workspace) :
    Leads Proper workspace.engine (workspace.afterSteps steps).engine := by
  induction steps generalizing workspace with
  | nil => exact .refl _
  | cons step rest ih =>
    exact (leads_step (hdirect step (by simp)) workspace).trans
      (ih (fun later hmem ↦ hdirect later (List.mem_cons_of_mem step hmem)) _)

end ComputeArray
