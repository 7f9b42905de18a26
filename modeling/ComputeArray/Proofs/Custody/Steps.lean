import ComputeArray.Proofs.Custody.Operations
import ComputeArray.Proofs.Lifetime.Steps

/-!
# Steps that keep account

A step that uses arrays that exist leaves every buffer in its place, unless it fails: then stride
buffers it has made may be loose. What names of arrays lead to after it are arrays again.
-/

set_option autoImplicit false

namespace ComputeArray

open Engine

variable {α β : Type}

namespace Workspace

variable {workspace : Workspace} {earlier spare found fewer : List Nat} {start : Nat}

/-- The arrays that names lead to. -/
def held (workspace : Workspace) : List Nat := workspace.arrays.map Prod.snd

/-- What is said of the engine, with all arrays that names lead to among those found. -/
def Holding (earlier : List Nat) (start : Nat) (spare found : List Nat) (workspace : Workspace) :
    Prop :=
  workspace.engine.Holding earlier start spare (workspace.held ++ found)

theorem Holding.weaken (h : workspace.Holding earlier start spare found)
    (hfewer : fewer ⊆ workspace.held ++ found) : workspace.Holding earlier start spare fewer :=
  Engine.Holding.weaken h (List.append_subset.mpr ⟨List.subset_append_left _ _, hfewer⟩)

theorem mem_held_of_array {name : String} {buffer : Nat}
    (h : outcomeOf (Session.array name) workspace = .ok buffer) : buffer ∈ workspace.held := by
  refine List.mem_map.mpr ⟨(name, buffer), List.mem_filterMap.mpr ⟨(name, .array buffer), ?_, rfl⟩,
    rfl⟩
  exact mem_of_lookup (lookup_of_array h)

theorem held_unbind_subset (name : String) (workspace : Workspace) :
    (workspace.unbind name).held ⊆ workspace.held :=
  List.map_subset _ (List.filterMap_subset _ (List.filter_subset_self _))

/-- A name is bound to a further array, or to a generator. -/
theorem held_bind_subset (name : String) (handle : Handle) (workspace : Workspace) :
    (workspace.bind name handle).held ⊆ handle.buffer :: workspace.held := by
  intro buffer hmem
  obtain ⟨entry, hentry, rfl⟩ := List.mem_map.mp hmem
  obtain ⟨named, hnamed, hbuffer⟩ := List.mem_filterMap.mp hentry
  rcases List.mem_append.mp hnamed with hold | hnew
  · refine List.mem_cons_of_mem _ (List.mem_map.mpr ⟨entry, ?_, rfl⟩)
    exact List.mem_filterMap.mpr ⟨named, (List.mem_filter.mp hold).1, hbuffer⟩
  · obtain rfl := List.mem_singleton.mp hnew
    cases handle with
    | array made =>
      cases hbuffer
      exact List.mem_cons_self
    | generator state => cases hbuffer

end Workspace

/-- From the workspace, the computation leaves no buffer loose, and more arrays
exist after it. If it fails, what it leaves loose was made to hold strides. -/
def KeepsCustodyAt (found : List Nat) (workspace : Workspace) (m : Session α)
    (more : α → List Nat) : Prop :=
  ∀ earlier start, workspace.Holding earlier start [] found →
    match outcomeOf m workspace with
    | .ok a => (stateAfter m workspace).Holding earlier start [] (more a ++ found)
    | .error _ => ∃ stray, (stateAfter m workspace).Holding earlier start stray found

namespace KeepsCustodyAt

variable {found : List Nat} {workspace : Workspace} {m : Session α} {f : α → Session β}
  {more : α → List Nat} {more' : β → List Nat} {action : Action α}

theorem bind (hm : KeepsCustodyAt found workspace m more)
    (hf : ∀ a next, KeepsCustodyAt (more a ++ found) next (f a) more') :
    KeepsCustodyAt found workspace (m >>= f) more' := by
  intro earlier start hholding
  have hfirst := hm earlier start hholding
  rw [outcomeOf_bind, stateAfter_bind]
  cases houtcome : outcomeOf m workspace with
  | error failure => simpa only [houtcome] using hfirst
  | ok a =>
    rw [houtcome] at hfirst
    have hlast := hf a _ earlier start hfirst
    have hfound : found ⊆ more a ++ found := List.subset_append_right _ _
    dsimp only
    cases houtcome' : outcomeOf (f a) (stateAfter m workspace) with
    | error failure =>
      rw [houtcome'] at hlast
      obtain ⟨stray, hstray⟩ := hlast
      exact ⟨stray, hstray.weaken (List.Subset.trans hfound (List.subset_append_right _ _))⟩
    | ok b =>
      rw [houtcome'] at hlast
      refine hlast.weaken (List.Subset.trans ?_ (List.subset_append_right _ _))
      exact append_subset_append (List.Subset.refl _) hfound

theorem pure {a : α} (h : more a ⊆ found) : KeepsCustodyAt found workspace (Pure.pure a) more :=
  fun _ _ hholding ↦ hholding.weaken (List.Subset.trans
    (List.append_subset.mpr ⟨h, List.Subset.refl _⟩) (List.subset_append_right _ _))

theorem done (a : α) : KeepsCustodyAt found workspace (Pure.pure a) fun _ ↦ [] :=
  pure (List.nil_subset _)

/-- Names and terms are looked up first. -/
theorem resolve (hm : Moves Eq m)
    (hf : ∀ a, outcomeOf m workspace = .ok a → KeepsCustodyAt found workspace (f a) more') :
    KeepsCustodyAt found workspace (m >>= f) more' := by
  intro earlier start hholding
  rw [outcomeOf_bind, stateAfter_bind, stateAfter_of_moves hm]
  cases houtcome : outcomeOf m workspace with
  | error failure => exact ⟨[], hholding⟩
  | ok a => exact hf a houtcome earlier start hholding

theorem of_moves_eq (hm : Moves Eq m) : KeepsCustodyAt found workspace m fun _ ↦ [] := by
  intro earlier start hholding
  rw [stateAfter_of_moves hm]
  cases outcomeOf m workspace with
  | error failure => exact ⟨[], hholding⟩
  | ok a => exact hholding

/-- Names of arrays lead to arrays. -/
theorem array (name : String) :
    KeepsCustodyAt found workspace (Session.array name) fun buffer ↦ [buffer] := by
  intro earlier start hholding
  rw [stateAfter_of_moves (moves_array name)]
  cases houtcome : outcomeOf (Session.array name) workspace with
  | error failure => exact ⟨[], hholding⟩
  | ok buffer =>
    refine hholding.weaken (List.append_subset.mpr ⟨?_, List.subset_append_right _ _⟩)
    exact List.cons_subset.mpr ⟨List.mem_append_left _ (Workspace.mem_held_of_array houtcome),
      List.nil_subset _⟩

theorem act (h : Tidy (workspace.held ++ found) action more) :
    KeepsCustodyAt found workspace (Session.act action) more := by
  intro earlier start hholding
  have hengine := h earlier start workspace.engine hholding
  change match outcomeOf action workspace.engine with
    | .ok a => Engine.Holding earlier start [] (workspace.held ++ (more a ++ found))
        (stateAfter action workspace.engine)
    | .error _ => ∃ stray, Engine.Holding earlier start stray (workspace.held ++ found)
        (stateAfter action workspace.engine)
  cases houtcome : outcomeOf action workspace.engine with
  | error failure => simpa only [houtcome] using hengine
  | ok a =>
    rw [houtcome] at hengine
    refine hengine.weaken (List.append_subset.mpr ⟨?_, ?_⟩)
    · exact List.Subset.trans (List.subset_append_left _ _) (List.subset_append_right _ _)
    · exact append_subset_append (List.Subset.refl _) (List.subset_append_right _ _)

theorem perform {action : Action Unit} {more : Unit → List Nat}
    (h : Tidy (workspace.held ++ found) action more) :
    KeepsCustodyAt found workspace (Session.perform action) fun _ ↦ [] :=
  (act h).bind fun _ _ ↦ done _

/-- An action that leaves all buffers in their places. -/
theorem preserving (h : Moves Preserves action) :
    KeepsCustodyAt found workspace (Session.act action) fun _ ↦ [] :=
  act (.of_moves h)

theorem performing {action : Action Unit} (h : Moves Preserves action) :
    KeepsCustodyAt found workspace (Session.perform action) fun _ ↦ [] :=
  perform (.of_moves h)

theorem unbind (name : String) :
    KeepsCustodyAt found workspace (modify (Workspace.unbind name)) fun _ ↦ [] :=
  fun _ _ hholding ↦ Engine.Holding.weaken hholding
    (append_subset_append (Workspace.held_unbind_subset name workspace) (List.Subset.refl _))

theorem bindResult (name : Option String) (handle : Handle) (hfound : handle.buffer ∈ found) :
    KeepsCustodyAt found workspace (Session.bindResult name handle) fun _ ↦ [] := by
  cases name with
  | none => exact done _
  | some name =>
    intro earlier start hholding
    refine Engine.Holding.weaken hholding
      (List.append_subset.mpr ⟨?_, List.subset_append_right _ _⟩)
    refine List.Subset.trans (Workspace.held_bind_subset name handle workspace) ?_
    exact List.cons_subset.mpr ⟨List.mem_append_right _ hfound, List.subset_append_left _ _⟩

end KeepsCustodyAt

/-! ### Making arrays -/

section Steps

open KeepsCustodyAt

variable {found : List Nat} {workspace : Workspace}

theorem keepsCustodyAt_make {making : Making} (hfound : making.uses workspace ⊆ found) :
    KeepsCustodyAt found workspace (Session.make none making) fun made ↦ [made] := by
  have hwider : making.uses workspace ⊆ workspace.held ++ found :=
    List.Subset.trans hfound (List.subset_append_right _ _)
  cases making with
  | layout shape elementName strides =>
    exact resolve (moves_resolve _) fun shape _ ↦ resolve (moves_resolve _) fun elementName _ ↦
      resolve (moves_resolve _) fun strides _ ↦ act (.newArray _ _ _)
  | full value shape elementName =>
    exact resolve (moves_resolve _) fun value _ ↦ resolve (moves_resolve _) fun shape _ ↦
      resolve (moves_resolve _) fun elementName _ ↦ act (.full _ _ _)
  | range arguments options =>
    exact resolve (moves_resolveArguments _ _) fun arguments _ ↦
      resolve (moves_resolveNamed _) fun options _ ↦ act (.range _ _)
  | table value => exact resolve (moves_resolve _) fun value _ ↦ act (.ofTable _)
  | call name operands =>
    exact resolve (moves_resolveOperands _ _) fun resolved hresolved ↦ act (.callByName _
      (List.Subset.trans (heldArrays_of_resolveOperands hresolved) hwider))
  | elementwise tag operands =>
    refine resolve (moves_resolveOperands _ _) fun resolved hresolved ↦
      act (.action (.elementwise _ _ _) ?_)
    refine Value.arrays_singleton_subset ?_ (List.Subset.trans (Value.arrays_subset_heldArrays _)
      (List.Subset.trans (heldArrays_of_resolveOperands hresolved) hwider))
    change resolved.2.getD .none ∈ _
    cases resolved.2 <;> simp
  | reduce tag operands =>
    exact resolve (moves_resolveOperands _ _) fun resolved hresolved ↦ act (.callReduce _
      (List.Subset.trans (heldArrays_of_resolveOperands hresolved) hwider))
  | arithmetic symbol left right =>
    exact resolve (moves_resolve _) fun left _ ↦ resolve (moves_resolve _) fun right _ ↦
      act (.arithmetic _ _ _)
  | named name => exact array name
  | reshaped name extents =>
    exact (array name).bind fun buffer _ ↦ resolve (moves_resolveArguments _ _) fun extents _ ↦
      (preserving (preserves_reshape buffer extents)).bind fun _ _ ↦
        pure (List.subset_append_left _ _)
  | uniform generator elementName =>
    exact resolve (moves_generator _) fun state _ ↦ resolve (moves_resolve _) fun elementName _ ↦
      act (.drawUniform _ _)
  | normal generator elementName =>
    exact resolve (moves_generator _) fun state _ ↦ resolve (moves_resolve _) fun elementName _ ↦
      act (.drawNormal _ _)

/-! ### Steps -/

/-- Whether a step is carried out without giving way to others. -/
def Step.isSingle : Step → Bool
  | .load .. => false
  | .repeated .. => false
  | _ => true

theorem run_eq_runSimple_of_isSingle {step : Step} (h : step.isSingle = true) :
    Session.run none step = Session.runSimple none step := by
  cases step with
  | load names during => cases h
  | repeated count steps => cases h
  | _ => rfl

theorem keepsCustodyAt_runSimple {step : Step} (hsingle : step.isSingle = true)
    (hfound : step.uses workspace ⊆ found) :
    KeepsCustodyAt found workspace (Session.runSimple none step) fun _ ↦ [] := by
  have hcompiles {α : Type} {action : Action α} (h : Moves Compiles action) :
      Moves Preserves action := h.mono fun _ _ ↦ preserves_of_compiles
  have hmodes (modes : Value) : Moves Preserves (Action.modesFrom modes) :=
    .bind .assertActive fun _ ↦ .ofExcept _
  cases step with
  | make making name =>
    exact (keepsCustodyAt_make hfound).bind fun made _ ↦
      (bindResult name (.array made) List.mem_cons_self).bind fun _ _ ↦
        of_moves_eq (moves_describeArray _)
  | makeGenerator size seed entropy name =>
    exact resolve (moves_resolve _) fun size _ ↦ resolve (moves_resolve _) fun seed _ ↦
      resolve (moves_resolve _) fun entropy _ ↦ (act (.newGenerator _ _ _)).bind fun state _ ↦
        (bindResult name (.generator state) List.mem_cons_self).bind fun _ _ ↦
          of_moves_eq (.bind .get fun _ ↦ .pure _)
  | drop name =>
    exact resolve (moves_handle _) fun _ _ ↦ (unbind name).bind fun _ _ ↦ done _
  | describe name =>
    exact of_moves_eq (.bind (moves_array _) fun _ ↦ moves_describeArray _)
  | hostElements name =>
    exact of_moves_eq (.bind .get fun _ ↦ .bind (moves_array _) fun _ ↦ .pure _)
  | deviceBytes name => exact of_moves_eq (.bind (moves_array _) fun _ ↦ .bind .get fun _ ↦ .pure _)
  | poke name start bytes =>
    exact resolve (moves_array _) fun buffer _ ↦ performing (preserves_changeDevice
      (fun _ ↦ Device.calls_setBytes _ _ _)
      (fun _ ↦ (Device.sameOutside_setBytes (Bytes.size_overwrite _ _ _)).extends)
      fun _ ↦ Device.size_buffers_setBytes _ _ _)
  | set name value index =>
    exact resolve (moves_array _) fun buffer _ ↦ resolve (moves_resolve _) fun value _ ↦
      resolve (moves_resolveAll _) fun index _ ↦ performing (preserves_setValue _ _ _)
  | element name index =>
    exact resolve (moves_array _) fun buffer _ ↦ resolve (moves_resolveAll _) fun index _ ↦
      (preserving (KeepsCustody.preserves_getElement _ _)).bind fun _ _ ↦ done _
  | hostElement name index =>
    exact resolve (moves_array _) fun buffer _ ↦ resolve (moves_resolveAll _) fun index _ ↦
      (act (.of_moves_eq (.bind (.array _) fun _ ↦ .ofExcept _))).bind fun _ _ ↦ done _
  | elements name =>
    exact resolve (moves_array _) fun buffer _ ↦
      (preserving (KeepsCustody.preserves_readElements _)).bind fun _ _ ↦
        of_moves_eq (.bind .get fun _ ↦ .pure _)
  | send name => exact resolve (moves_array _) fun buffer _ ↦ performing (preserves_send buffer)
  | loadBlocking name =>
    exact resolve (moves_array _) fun buffer _ ↦ performing (preserves_loadBlocking buffer)
  | markDeviceDirty name =>
    exact resolve (moves_array _) fun buffer _ ↦ performing (preserves_markDeviceDirty buffer)
  | release name =>
    exact (array name).bind fun buffer _ ↦ perform
      (.release (List.mem_append_right _ List.mem_cons_self))
  | load names during => cases hsingle
  | skip generator =>
    exact resolve (moves_generator _) fun state _ ↦
      performing (KeepsCustody.preserves_skipDraw state)
  | describeGenerator generator =>
    exact of_moves_eq (.bind (moves_generator _) fun _ ↦ moves_describeGenerator _)
  | grid lanes => exact (act (.of_moves_eq (.grid lanes))).bind fun _ _ ↦ done _
  | synchronize blocking => exact performing (preserves_synchronize blocking)
  | retire serial => exact performing (.update (preserves_retire serial))
  | destroy => exact performing preserves_destroy
  | markLost arguments =>
    exact resolve (moves_resolveArguments _ _) fun arguments _ ↦
      performing (preserves_markLostAction arguments)
  | assertActive => exact performing .assertActive
  | describeEngine => exact of_moves_eq (.bind .get fun _ ↦ .pure _)
  | describeCaches => exact of_moves_eq (.bind .get fun _ ↦ .pure _)
  | setCompiler compiler =>
    exact performing (preserves_changeDevice (fun _ ↦ rfl) (fun _ ↦ .of_buffers_eq rfl) fun _ ↦ rfl)
  | createLayout modes =>
    exact resolve (moves_resolve _) fun modes _ ↦ (preserving (.bind (hmodes modes)
      fun modes ↦ hcompiles (compiles_createLayout modes))).bind fun _ _ ↦ done _
  | createModule source =>
    exact (preserving (hcompiles (compiles_createModule source))).bind fun _ _ ↦ done _
  | createPipeline source modes constants =>
    exact resolve (moves_resolve _) fun modes _ ↦ resolve (moves_resolveNamed _) fun constants _ ↦
      (preserving (.bind (hmodes modes) fun modes ↦
        .bind (hcompiles (compiles_createPipeline source modes constants)) fun _ ↦ .pure _)).bind
          fun _ _ ↦ done _
  | submit dispatches copies =>
    exact resolve (.mapM _ fun _ _ ↦ moves_resolveDispatch _) fun resolved _ ↦
      resolve (.mapM _ fun _ _ ↦ moves_resolveCopy _) fun moves _ ↦
        (preserving (preserves_submit resolved moves)).bind fun _ _ ↦ done _
  | repeated count steps => cases hsingle

end Steps

end ComputeArray
