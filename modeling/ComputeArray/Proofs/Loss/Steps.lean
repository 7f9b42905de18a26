import ComputeArray.Proofs.Loss.Course
import ComputeArray.Proofs.Loss.Operations

/-!
# Steps without their device

Every step that calls the engine, an array or a generator is barred by the loss of the device
(`barred_run`): it fails because of the loss, or it goes as it would with the device and does not
need it. Steps about the loss itself come to nothing (`engine_of_isAboutLoss`).
-/

set_option autoImplicit false

namespace ComputeArray

open Engine Carrier

variable {α : Type} {R : Engine → Engine → Prop}

theorem Barred.act {action : Action α} (h : Barred R action) : Barred R (Session.act action) := by
  intro notice workspace hstranded
  cases h notice workspace.engine hstranded with
  | refused failure outcome untouched cause => exact .refused failure outcome untouched cause
  | carriedOut a outcome stranded same related active =>
    refine .carriedOut a outcome stranded same related fun pending log ↦ ?_
    obtain ⟨houtcome, pending', log', hafter⟩ := active pending log
    exact ⟨houtcome, pending', log', congrArg (fun engine ↦ { workspace with engine }) hafter⟩

section

variable [Tolerant R]

theorem Barred.perform {action : Action Unit} (h : Idle action) :
    Barred R (Session.perform action) :=
  .bind h.act fun _ ↦ .pure _

/-! ### Names and terms -/

theorem barred_handle (name : String) : Barred R (Session.handle name) := by
  refine .get (fun workspace ↦ ?_) fun _ _ _ ↦ rfl
  split
  · exact .pure _
  · exact .throw _

theorem barred_array (name : String) : Barred R (Session.array name) := by
  refine .bind (barred_handle name) fun handle ↦ ?_
  split
  · exact .pure _
  · exact .throw _

theorem barred_generator (name : String) : Barred R (Session.generator name) := by
  refine .bind (barred_handle name) fun handle ↦ ?_
  split
  · exact .pure _
  · exact .throw _

theorem barred_arrayValue (name : String) : Barred R (Session.arrayValue name) :=
  .bind (barred_array name) fun _ ↦ .get (fun _ ↦ .pure _) fun _ _ _ ↦ rfl

theorem barred_describeArray (buffer : Nat) : Barred R (Session.describeArray buffer) :=
  .get (fun _ ↦ .bind (.ofExcept _) fun _ ↦ .pure _) fun _ _ _ ↦ rfl

theorem barred_describeGenerator (state : Nat) : Barred R (Session.describeGenerator state) :=
  .get (fun _ ↦ .bind (.ofExcept _) fun _ ↦ .pure _) fun _ _ _ ↦ rfl

end

mutual

theorem idle_resolve (term : Term) : Idle (Session.resolve term) := by
  cases term with
  | value value => exact .pure _
  | reference name => exact barred_arrayValue name
  | list items => exact .bind (idle_resolveAll items) fun _ ↦ .pure _

theorem idle_resolveAll (terms : List Term) : Idle (Session.resolveAll terms) := by
  cases terms with
  | nil => exact .pure _
  | cons first rest =>
    exact .bind (idle_resolve first) fun _ ↦ .bind (idle_resolveAll rest) fun _ ↦ .pure _

end

theorem idle_resolveNamed (terms : List (String × Term)) :
    Idle (Session.resolveNamed terms) := by
  induction terms with
  | nil => exact .pure _
  | cons first rest ih => exact .bind (idle_resolve _) fun _ ↦ .bind ih fun _ ↦ .pure _

theorem idle_resolveArguments (round : Option Nat) (arguments : List Term) :
    Idle (Session.resolveArguments round arguments) := by
  refine .bind (idle_resolveAll arguments) fun values ↦ ?_
  cases round with
  | none => exact .pure _
  | some i => exact .pure _

theorem idle_resolveOperands (round : Option Nat) (operands : Operands) :
    Idle (Session.resolveOperands round operands) := by
  refine .bind (idle_resolveArguments round operands.arguments) fun arguments ↦ ?_
  split
  · exact .pure _
  · exact .bind (barred_arrayValue _) fun _ ↦ .pure _

theorem idle_resolveDispatch (term : DispatchTerm) : Idle (Session.resolveDispatch term) := by
  refine .bind (.mapM _ fun binding _ ↦ ?_) fun bindings ↦
    .bind (idle_resolveNamed _) fun _ ↦ .pure _
  exact .bind (barred_array _) fun _ ↦ .bind (idle_resolve _) fun _ ↦
    .bind (.ofExcept _) fun _ ↦ .pure _

/-- Names belong to the workspace, not to the engine. -/
theorem idle_rename (change : List (String × Handle) → List (String × Handle)) :
    Idle (modify fun workspace ↦ { workspace with names := change workspace.names } :
      Session Unit) :=
  fun _ workspace h ↦ .carriedOut ⟨⟩ rfl h rfl (refl_of Untouched workspace.engine)
    fun pending log ↦ ⟨rfl, pending, log, rfl⟩

theorem idle_bindResult (name : Option String) (handle : Handle) :
    Idle (Session.bindResult name handle) := by
  cases name with
  | none => exact .pure _
  | some name => exact idle_rename fun names ↦ names.filter (·.1 ≠ name) ++ [(name, handle)]

/-! ### Making arrays -/

/-- Whether a making changes an array there is. -/
def Making.Reshapes : Making → Prop
  | .reshaped .. => True
  | _ => False

theorem idle_make (round : Option Nat) {making : Making} (h : ¬ making.Reshapes) :
    Idle (Session.make round making) := by
  cases making with
  | layout shape elementName strides =>
    exact .bind (idle_resolve _) fun _ ↦ .bind (idle_resolve _) fun _ ↦
      .bind (idle_resolve _) fun _ ↦ .act (refuses_newArray _ _ _).barred
  | full value shape elementName =>
    exact .bind (idle_resolve _) fun _ ↦ .bind (idle_resolve _) fun _ ↦
      .bind (idle_resolve _) fun _ ↦ .act (idle_full _ _ _)
  | range arguments named =>
    exact .bind (idle_resolveArguments _ _) fun _ ↦ .bind (idle_resolveNamed _) fun _ ↦
      .act (idle_range _ _)
  | table value => exact .bind (idle_resolve _) fun _ ↦ .act (idle_ofTable _)
  | call name operands =>
    exact .bind (idle_resolveOperands _ _) fun _ ↦ .act (idle_callByName _ _ _)
  | elementwise tag operands =>
    exact .bind (idle_resolveOperands _ _) fun _ ↦ .act (idle_elementwise _ _ _)
  | reduce tag operands =>
    exact .bind (idle_resolveOperands _ _) fun _ ↦ .act (idle_callReduce _ _ _)
  | arithmetic symbol left right =>
    exact .bind (idle_resolve _) fun _ ↦ .bind (idle_resolve _) fun _ ↦
      .act (idle_arithmetic _ _ _)
  | named name => exact barred_array name
  | reshaped name extents => exact absurd trivial h
  | uniform generator elementName =>
    exact .bind (barred_generator _) fun _ ↦ .bind (idle_resolve _) fun _ ↦
      .act (idle_drawUniform _ _)
  | normal generator elementName =>
    exact .bind (barred_generator _) fun _ ↦ .bind (idle_resolve _) fun _ ↦
      .act (idle_drawNormal _ _)

theorem outcomeOf_bindResult (name : Option String) (handle : Handle) (workspace : Workspace) :
    outcomeOf (Session.bindResult name handle) workspace = .ok ⟨⟩ ∧
      (stateAfter (Session.bindResult name handle) workspace).engine = workspace.engine := by
  cases name with
  | none => exact ⟨rfl, rfl⟩
  | some name => exact ⟨rfl, rfl⟩

/-- A reshaped array can be described. -/
theorem describeArray_of_reshape {buffer : Nat} {extents : List Value} {engine : Engine}
    (h : outcomeOf (Action.reshape buffer extents) engine = .ok ⟨⟩) :
    ∃ description,
      (stateAfter (Action.reshape buffer extents) engine).describeArray buffer =
        .ok description := by
  suffices hlength : ∃ length,
      ((stateAfter (Action.reshape buffer extents) engine).array buffer).length = .ok length by
    obtain ⟨length, hlength⟩ := hlength
    exact ⟨_, bind_eq_ok.mpr ⟨length, hlength, rfl⟩⟩
  unfold Action.reshape at h ⊢
  dsimp only at h ⊢
  rcases updateArray_cases engine buffer (·.reshape _) with
    ⟨failure, -, hfails, -⟩ | ⟨updated, hupdated, -, hstate⟩
  · rw [hfails] at h
    cases h
  · rw [hstate]
    obtain ⟨-, extents, length, -, hcount, hlength, rfl⟩ := ArrayState.reshape_iff.mp hupdated
    cases hlookup : engine.arrays.lookup buffer with
    | none =>
      have hnone : (engine.setArray buffer { engine.array buffer with
          shape := extents
          strides := (Layout.contiguous (extents.map Int.ofNat)).map Int.toNat }).array buffer =
          engine.array buffer := by
        rw [Engine.array, Engine.array, lookup_setArray, hlookup, Option.map_none]
      exact ⟨length, by rw [hnone, hlength]⟩
    | some array => exact ⟨length, by rw [array_setArray_self _ hlookup]; exact hcount⟩

theorem barred_make (round : Option Nat) (making : Making) (name : Option String) :
    Barred Changed (Session.runSimple round (.make making name)) := by
  have hend (buffer : Nat) : Barred Changed (do
      Session.bindResult name (.array buffer)
      Session.describeArray buffer) :=
    .bind (idle_bindResult _ _) fun _ ↦ barred_describeArray _
  by_cases hreshapes : making.Reshapes
  · cases making with
    | reshaped source extents =>
      have hrun : Session.runSimple round (.make (.reshaped source extents) name) = (do
          let buffer ← Session.array source
          let extents ← Session.resolveArguments round extents
          Session.act (Action.reshape buffer extents)
          Session.bindResult name (.array buffer)
          Session.describeArray buffer) := by
        simp only [Session.runSimple, Session.make, bind_assoc, pure_bind]
      rw [hrun]
      refine .bind (barred_array _) fun buffer ↦ .bind (idle_resolveArguments _ _) fun extents ↦
        fun notice workspace h ↦ ?_
      refine ((barred_reshape buffer extents).act notice workspace h).sequence (fun _ _ ↦ id)
        (fun _ _ hstranded ↦ hend buffer notice _ hstranded) fun _ failure hreshaped _ hfails ↦ ?_
      -- What follows a reshape does not fail.
      obtain ⟨description, hdescription⟩ := describeArray_of_reshape hreshaped
      set later := stateAfter (Session.act (Action.reshape buffer extents)) workspace
      obtain ⟨hbound, hengine⟩ := outcomeOf_bindResult name (.array buffer) later
      have hdescribed : outcomeOf (Session.describeArray buffer)
          (stateAfter (Session.bindResult name (.array buffer)) later) =
            .ok (.array description) := by
        refine outcomeOf_bind_eq_ok.mpr ⟨_, outcomeOf_get _, outcomeOf_bind_eq_ok.mpr
          ⟨description, ?_, rfl⟩⟩
        rw [Session.ofExcept, outcomeOf_ofExcept, hengine]
        exact hdescription
      rw [outcomeOf_bind, hbound, hdescribed] at hfails
      cases hfails
    | _ => exact hreshapes.elim
  · exact .bind (idle_make round hreshapes) hend

/-! ### Simple steps -/

namespace Step

/-- Whether the step is about the loss itself. -/
def IsAboutLoss : Step → Prop
  | .destroy => True
  | .markLost _ => True
  | .describeEngine => True
  | _ => False

/-- Whether the step only repeats others. -/
def IsRepeated : Step → Prop
  | .repeated .. => True
  | _ => False

/-- Whether the step takes the queue into its own hands. -/
def IsRetire : Step → Prop
  | .retire _ => True
  | _ => False

end Step

theorem barred_markDeviceDirty (buffer : Nat) :
    Barred Changed (Action.markDeviceDirty buffer) := by
  intro notice (engine : Engine) (h : engine.Stranded notice)
  have hset : Terminal engine (stateAfter (Action.markDeviceDirty buffer) engine) :=
    terminal_setArray id
  obtain ⟨hafter, hcalls, -⟩ := hset notice h
  exact .carriedOut ⟨⟩ rfl hafter hcalls trivial fun pending log ↦ ⟨rfl, pending, log, rfl⟩

/-- What changes the device from outside the engine, without a call. -/
theorem barred_changeDevice {change : Device → Device}
    (h : ∀ device, (change device).calls = device.calls) :
    Barred Changed (Action.changeDevice change) :=
  fun _ _ hstranded ↦ .carriedOut ⟨⟩ rfl
    ⟨hstranded.lost, hstranded.pending, hstranded.idle⟩ (h _) trivial
    fun pending log ↦ ⟨rfl, pending, log, rfl⟩

theorem Barred.performChanged {action : Action Unit} (h : Barred Changed action) :
    Barred Changed (Session.perform action) := by
  intro notice workspace hstranded
  refine (h.act notice workspace hstranded).sequence (fun _ _ ↦ id)
    (fun _ _ hstranded' ↦ Barred.pure _ notice _ hstranded') fun _ failure _ _ hfails ↦ ?_
  rw [outcomeOf_pure] at hfails
  cases hfails

theorem barred_runSimple (round : Option Nat) {step : Step} (hloss : ¬ step.IsAboutLoss)
    (hretire : ¬ step.IsRetire) : Barred Changed (Session.runSimple round step) := by
  cases step with
  | make making name => exact barred_make round making name
  | makeGenerator size seed entropy name =>
    exact .bind (idle_resolve _) fun _ ↦ .bind (idle_resolve _) fun _ ↦
      .bind (idle_resolve _) fun _ ↦ .bind (.act (idle_newGenerator _ _ _)) fun _ ↦
        .bind (idle_bindResult _ _) fun _ ↦ .get (fun _ ↦ .pure _) fun _ _ _ ↦ rfl
  | drop name =>
    exact .bind (barred_handle _) fun _ ↦
      .bind (idle_rename fun names ↦ names.filter (·.1 ≠ name)) fun _ ↦ .pure _
  | describe name => exact .bind (barred_array _) fun _ ↦ barred_describeArray _
  | hostElements name =>
    exact .get (fun _ ↦ .bind (barred_array _) fun _ ↦ .pure _) fun _ _ _ ↦ rfl
  | deviceBytes name =>
    exact .bind (barred_array _) fun _ ↦ .get (fun _ ↦ .pure _) fun _ _ _ ↦ rfl
  | poke name start bytes =>
    exact .bind (barred_array _) fun _ ↦
      .performChanged (barred_changeDevice fun _ ↦ Device.calls_setBytes _ _ _)
  | set name value index =>
    exact .bind (barred_array _) fun _ ↦ .bind (idle_resolve _) fun _ ↦
      .bind (idle_resolveAll _) fun _ ↦ .performChanged (barred_setValue _ _ _)
  | element name index =>
    exact .bind (barred_array _) fun _ ↦ .bind (idle_resolveAll _) fun _ ↦
      .bind (.act (idle_getElement _ _)) fun _ ↦ .pure _
  | hostElement name index =>
    exact .bind (barred_array _) fun _ ↦ .bind (idle_resolveAll _) fun _ ↦
      .bind (.act (idle_hostElement _ _)) fun _ ↦ .pure _
  | elements name =>
    exact .bind (barred_array _) fun _ ↦ .bind (.act (idle_readElements _)) fun _ ↦
      .get (fun _ ↦ .pure _) fun _ _ _ ↦ rfl
  | send name => exact .bind (barred_array _) fun _ ↦ .perform (idle_send _)
  | loadBlocking name => exact .bind (barred_array _) fun _ ↦ .perform (idle_loadBlocking _)
  | markDeviceDirty name =>
    exact .bind (barred_array _) fun _ ↦ .performChanged (barred_markDeviceDirty _)
  | release name => exact .bind (barred_array _) fun _ ↦ .perform (idle_release _)
  | load names during => exact .pure _
  | skip name => exact .bind (barred_generator _) fun _ ↦ .perform (idle_skipDraw _)
  | describeGenerator name =>
    exact .bind (barred_generator _) fun _ ↦ barred_describeGenerator _
  | grid lanes => exact .bind (.act (idle_grid _)) fun _ ↦ .pure _
  | synchronize blocking => exact .perform (refuses_synchronize _).barred
  | retire serial => exact absurd trivial hretire
  | destroy => exact absurd trivial hloss
  | markLost arguments => exact absurd trivial hloss
  | assertActive => exact .perform refuses_assertActive.barred
  | describeEngine => exact absurd trivial hloss
  | describeCaches => exact .get (fun _ ↦ .pure _) fun _ _ _ ↦ rfl
  | setCompiler compiler => exact .performChanged (barred_changeDevice fun _ ↦ rfl)
  | createLayout modes =>
    exact .bind (idle_resolve _) fun _ ↦
      .bind (.act (refuses_createLayoutFor _).barred) fun _ ↦ .pure _
  | createModule source =>
    exact .bind (.act (refuses_createModule _).barred) fun _ ↦ .pure _
  | createPipeline source modes constants =>
    exact .bind (idle_resolve _) fun _ ↦ .bind (idle_resolveNamed _) fun _ ↦
      .bind (.act (refuses_createPipelineFor _ _ _).barred) fun _ ↦ .pure _
  | submit dispatches copies =>
    refine .bind (.mapM _ fun _ _ ↦ idle_resolveDispatch _) fun _ ↦ .bind (.mapM _ fun copy _ ↦ ?_)
      fun _ ↦ .bind (.act (refuses_submit _ _ _).barred) fun _ ↦ .pure _
    exact .bind (barred_array _) fun _ ↦ .bind (barred_array _) fun _ ↦ .pure _
  | repeated count steps => exact .pure _

/-! ### Loads -/

section Loads

variable {workspace : Workspace} {notice : LossNotice}

/-- Attempts to start a load. -/
def Session.attemptLoad (buffer : Nat) : Session (Except Failure Bool) :=
  Session.attempt (Action.startLoad buffer)

theorem attemptLoad_of_not_scheduled {buffer : Nat}
    (h : (workspace.engine.array buffer).loading ≠ .scheduled) :
    outcomeOf (Session.attemptLoad buffer) workspace = .ok (.ok false) ∧
      stateAfter (Session.attemptLoad buffer) workspace = workspace := by
  obtain ⟨hstate, houtcome⟩ := startLoad_of_not_scheduled h
  exact ⟨congrArg Except.ok houtcome, congrArg (fun engine ↦ { workspace with engine }) hstate⟩

/-- Loads that have not been scheduled do not start. -/
theorem attemptLoads_of_not_scheduled {buffers : List Nat}
    (h : ∀ buffer ∈ buffers, (workspace.engine.array buffer).loading ≠ .scheduled) :
    outcomeOf (buffers.mapM Session.attemptLoad) workspace =
        .ok (buffers.map fun _ ↦ .ok false) ∧
      stateAfter (buffers.mapM Session.attemptLoad) workspace = workspace := by
  induction buffers with
  | nil => exact ⟨rfl, rfl⟩
  | cons buffer rest ih =>
    obtain ⟨hfirst, hsame⟩ := attemptLoad_of_not_scheduled (h buffer List.mem_cons_self)
    obtain ⟨hrest, hlast⟩ := ih fun other hmem ↦ h other (List.mem_cons_of_mem buffer hmem)
    obtain ⟨houtcome, hstate⟩ := mapM_cons_of_ok hfirst (by rw [hsame]; exact hrest)
    exact ⟨houtcome, by rw [hstate, hsame, hlast]⟩

/-- Without the device no load starts, and those that have been scheduled fail. -/
theorem attemptLoads_of_stranded (buffers : List Nat) (h : workspace.engine.Stranded notice) :
    ∃ outcomes, outcomeOf (buffers.mapM Session.attemptLoad) workspace = .ok outcomes ∧
      outcomes.any Session.wasStarted = false ∧
      (stateAfter (buffers.mapM Session.attemptLoad) workspace).engine.Stranded notice ∧
      Untouched workspace.engine (stateAfter (buffers.mapM Session.attemptLoad) workspace).engine ∧
      ((∃ buffer ∈ buffers, (workspace.engine.array buffer).loading = .scheduled) →
        Session.firstFailure outcomes = some notice.failure) := by
  induction buffers generalizing workspace with
  | nil => exact ⟨[], rfl, rfl, h, refl_of Untouched _, by simp⟩
  | cons buffer rest ih =>
    by_cases hloading : (workspace.engine.array buffer).loading = .scheduled
    · obtain ⟨houtcome, hstate⟩ := startLoad_of_lost h.lost hloading
      have hfirst : outcomeOf (Session.attemptLoad buffer) workspace =
          .ok (.error notice.failure) := congrArg Except.ok houtcome
      set later := stateAfter (Session.attemptLoad buffer) workspace
      have hengine : later.engine = _ := hstate
      have hset : Terminal workspace.engine later.engine := by
        rw [hengine]
        exact terminal_setArray fun _ _ ↦ nofun
      have hidle : Untouched workspace.engine later.engine := by
        rw [hengine]
        exact untouched_setArray rfl
      have hlater : later.engine.Stranded notice := (hset notice h).1
      obtain ⟨outcomes, hrest, hnone, hstranded, huntouched, -⟩ := ih hlater
      obtain ⟨houtcomes, hlast⟩ := mapM_cons_of_ok hfirst hrest
      refine ⟨.error notice.failure :: outcomes, houtcomes, hnone, ?_, ?_, fun _ ↦ rfl⟩
      · rwa [hlast]
      · rw [hlast]
        exact trans_of Untouched hidle huntouched
    · obtain ⟨hfirst, hsame⟩ := attemptLoad_of_not_scheduled hloading
      obtain ⟨outcomes, hrest, hnone, hstranded, huntouched, hfails⟩ := ih h
      obtain ⟨houtcomes, hlast⟩ := mapM_cons_of_ok hfirst (by rw [hsame]; exact hrest)
      rw [hsame] at hlast
      refine ⟨.ok false :: outcomes, houtcomes, hnone, by rwa [hlast], by rwa [hlast], ?_⟩
      rintro ⟨other, hmem, hother⟩
      rcases List.mem_cons.mp hmem with rfl | hmem
      · exact absurd hother hloading
      · exact hfails ⟨other, hmem, hother⟩

/-- Loads that have not been started have nothing to finish. -/
theorem finishLoads_of_stranded (buffers : List Nat) (h : workspace.engine.Stranded notice) :
    outcomeOf (buffers.forM fun buffer ↦ Session.act (Action.finishLoad buffer)) workspace =
        .ok ⟨⟩ ∧
      stateAfter (buffers.forM fun buffer ↦ Session.act (Action.finishLoad buffer)) workspace =
        workspace := by
  induction buffers with
  | nil => exact ⟨rfl, rfl⟩
  | cons buffer rest ih =>
    obtain ⟨hstate, houtcome⟩ := finishLoad_of_not_copying (h.idle buffer)
    have hfirst : outcomeOf (Session.act (Action.finishLoad buffer)) workspace = .ok ⟨⟩ :=
      houtcome
    have hsame : stateAfter (Session.act (Action.finishLoad buffer)) workspace = workspace :=
      congrArg (fun engine ↦ { workspace with engine }) hstate
    change outcomeOf (Session.act (Action.finishLoad buffer) >>= fun _ ↦ rest.forM _) workspace =
        _ ∧ stateAfter (Session.act (Action.finishLoad buffer) >>= fun _ ↦ rest.forM _)
          workspace = _
    rw [outcomeOf_bind, stateAfter_bind, hfirst, hsame]
    exact ih

theorem firstFailure_of_not_started (buffers : List Nat) :
    Session.firstFailure (buffers.map fun _ ↦ (.ok false : Except Failure Bool)) = none ∧
      (buffers.map fun _ ↦ (.ok false : Except Failure Bool)).any Session.wasStarted = false := by
  induction buffers with
  | nil => exact ⟨rfl, rfl⟩
  | cons buffer rest ih => exact ih

/-- A load of several arrays fails if one of them has to be copied. -/
theorem idle_loads (round : Option Nat) (names : List String) (during : List Step) :
    Idle (Session.run round (.load names during)) := by
  unfold Session.run
  refine .bind (.mapM _ fun name _ ↦ barred_array name) fun found ↦ ?_
  dsimp only
  generalize found.eraseDups = buffers
  refine .bind (.forM _ fun buffer _ ↦ (idle_requestLoad buffer).act) fun _ ↦
    fun notice workspace h ↦ ?_
  by_cases hscheduled : ∃ buffer ∈ buffers,
      (workspace.engine.array buffer).loading = .scheduled
  · obtain ⟨outcomes, houtcomes, hnone, hstranded, huntouched, hfails⟩ :=
      attemptLoads_of_stranded buffers h
    obtain ⟨hfinished, hlast⟩ := finishLoads_of_stranded buffers hstranded
    refine .refused notice.failure ?_ ?_ (.inl rfl)
    · change outcomeOf (buffers.mapM Session.attemptLoad >>= _) workspace = _
      rw [outcomeOf_bind, houtcomes]
      simp only [hnone, Bool.false_eq_true, if_false, pure_bind]
      rw [outcomeOf_bind, hfinished]
      simp only [hfails hscheduled, outcomeOf_throw]
    · change Untouched _ (stateAfter (buffers.mapM Session.attemptLoad >>= _) workspace).engine
      rw [stateAfter_bind, houtcomes]
      simp only [hnone, Bool.false_eq_true, if_false, pure_bind]
      rw [stateAfter_bind, hfinished]
      simp only [hfails hscheduled, stateAfter_throw]
      rwa [hlast]
  · have hidle : ∀ buffer ∈ buffers, (workspace.engine.array buffer).loading ≠ .scheduled :=
      fun buffer hmem hloading ↦ hscheduled ⟨buffer, hmem, hloading⟩
    obtain ⟨houtcomes, hsame⟩ := attemptLoads_of_not_scheduled hidle
    have hattempts : Fares Untouched notice (buffers.mapM Session.attemptLoad) workspace := by
      refine .carriedOut _ houtcomes (by rwa [hsame]) (by rw [hsame])
        (by rw [hsame]; exact refl_of Untouched _) fun pending log ↦ ?_
      have hactive : ∀ buffer ∈ buffers,
          ((revive pending log workspace).engine.array buffer).loading ≠ .scheduled := hidle
      obtain ⟨houtcomes', hsame'⟩ := attemptLoads_of_not_scheduled hactive
      exact ⟨houtcomes', pending, log, by rw [hsame', hsame]⟩
    refine hattempts.bind fun outcomes houtcome hstranded ↦ ?_
    obtain rfl := Except.ok.inj (houtcomes.symm.trans houtcome)
    obtain ⟨hnone, hstarted⟩ := firstFailure_of_not_started buffers
    simp only [hstarted, Bool.false_eq_true, if_false, pure_bind, hnone]
    exact Barred.bind (.forM _ fun buffer _ ↦ (idle_finishLoad buffer).act)
      (fun _ ↦ .pure _) notice _ hstranded

end Loads

/-- Every step but those about the loss itself and the queue is barred by the loss. -/
theorem barred_run (round : Option Nat) {step : Step} (hloss : ¬ step.IsAboutLoss)
    (hretire : ¬ step.IsRetire) (hrepeated : ¬ step.IsRepeated) :
    Barred Changed (Session.run round step) := by
  cases step with
  | load names during =>
    intro notice workspace h
    cases idle_loads round names during notice workspace h with
    | refused failure outcome untouched cause => exact .refused failure outcome untouched cause
    | carriedOut a outcome stranded same related active =>
      exact .carriedOut a outcome stranded same trivial active
  | repeated count steps => exact absurd trivial hrepeated
  | _ => exact barred_runSimple round hloss hretire

/-! ### Steps about the loss -/

theorem engine_perform (action : Action Unit) (workspace : Workspace) :
    (stateAfter (Session.perform action) workspace).engine =
      stateAfter action workspace.engine := by
  have hact : (stateAfter (Session.act action) workspace).engine =
      stateAfter action workspace.engine := rfl
  rw [Session.perform, stateAfter_bind]
  cases outcomeOf (Session.act action) workspace with
  | error failure => exact hact
  | ok done => exact hact

/-- Asking for the loss or about it changes nothing any more. -/
theorem engine_of_isAboutLoss {notice : LossNotice} {workspace : Workspace}
    (h : workspace.engine.lost = some notice) (round : Option Nat) {step : Step}
    (habout : step.IsAboutLoss) :
    (stateAfter (Session.run round step) workspace).engine = workspace.engine := by
  have hlost : workspace.engine.isLost = true := by rw [isLost, h, Option.isSome_some]
  cases step with
  | destroy =>
    refine (engine_perform _ workspace).trans ?_
    rcases destroy_cases workspace.engine with hsame | ⟨hactive, -⟩
    · exact hsame
    · cases h.symm.trans hactive
  | markLost arguments =>
    have hresolved : stateAfter (Session.resolveArguments round arguments) workspace = workspace :=
      stateAfter_of_moves (moves_resolveArguments _ _) workspace
    have hmarked (values : List Value) :
        stateAfter (Action.markLost values) workspace.engine = workspace.engine := by
      rw [Action.markLost, stateAfter_bind, stateAfter_actionOfExcept]
      split
      · rw [stateAfter_bind_of_ok (outcomeOf_get _), stateAfter_get, if_pos hlost]
        rfl
      · rfl
    change (stateAfter (Session.resolveArguments round arguments >>= _) workspace).engine = _
    rw [stateAfter_bind, hresolved]
    split
    · exact (engine_perform _ workspace).trans (hmarked _)
    · rfl
  | describeEngine => rfl
  | _ => exact habout.elim

end ComputeArray
