import ComputeArray.Proofs.Memory.Load

/-!
# Access and memory

Readers of an array get its content, and storing a value stores it in the content, wherever the
newest copy is (`readElements_eq_view`, `getElement_eq_elementAt`, `setValue_eq_stored`). Access
keeps the copies coherent, and changes the content of no array but the one that is stored in.
-/

set_option autoImplicit false

namespace ComputeArray

namespace ArrayState

theorem StoresBy.eq_ok {array stored : ArrayState} {update : ArrayState → Except Failure ArrayState}
    (h : array.StoresBy update) (hok : update array = .ok stored) :
    ∃ storage : Bytes, storage.size = array.storage.size ∧
      stored = { array with storage, hostDirty := true } := by
  rcases h with ⟨failure, hfails⟩ | ⟨change, hsize, -, hstores⟩
  · rw [show update array = .error failure from hfails array.storage] at hok
    cases hok
  · rw [show update array = _ from hstores array.storage] at hok
    exact ⟨change array.storage, hsize _, (Except.ok.inj hok).symm⟩

/-- Arrays that are alike fail to be updated in the same way, or are stored alike. -/
theorem StoresBy.alike {array other : ArrayState} {update : ArrayState → Except Failure ArrayState}
    (h : array.StoresBy update) (halike : array.Alike other) :
    (∃ failure, update array = .error failure ∧ update other = .error failure) ∨
      ∃ stored stored', update array = .ok stored ∧ update other = .ok stored' ∧
        stored.Alike stored' := by
  obtain ⟨storage, rfl, hsame⟩ := halike
  rcases h with ⟨failure, hfails⟩ | ⟨change, -, hcongr, hstores⟩
  · exact .inl ⟨failure, hfails array.storage, hfails storage⟩
  · exact .inr ⟨_, _, hstores array.storage, hstores storage, change storage, rfl,
      hcongr _ _ hsame⟩

end ArrayState

/-- Only contiguous arrays are reshaped, to as many elements as they have. Their shape and their
strides change. -/
theorem ArrayState.reshape_iff {array updated : ArrayState} {shape : Value} :
    array.reshape shape = .ok updated ↔
      array.customStrides = false ∧ ∃ extents length, Shape.ofValue shape = .ok extents ∧
        Layout.contiguousCount (extents.map Int.ofNat) = .ok length ∧ array.length = .ok length ∧
        updated = { array with
          shape := extents
          strides := (Layout.contiguous (extents.map Int.ofNat)).map Int.toNat } := by
  unfold reshape
  constructor
  · intro h
    cases hcustom : array.customStrides with
    | true =>
      rw [hcustom, if_pos rfl] at h
      cases h
    | false =>
      rw [hcustom, if_neg Bool.false_ne_true] at h
      obtain ⟨extents, hextents, h⟩ := bind_eq_ok.mp h
      obtain ⟨count, hcount, h⟩ := bind_eq_ok.mp h
      obtain ⟨length, hlength, h⟩ := bind_eq_ok.mp h
      split at h
      · cases h
      · next hsame =>
        obtain rfl : count = length := not_not.mp hsame
        cases h
        exact ⟨rfl, extents, count, hextents, hcount, hlength, rfl⟩
  · rintro ⟨hplain, extents, length, hextents, hcount, hlength, rfl⟩
    rw [hplain, if_neg Bool.false_ne_true]
    refine bind_eq_ok.mpr ⟨extents, hextents, bind_eq_ok.mpr ⟨length, hcount,
      bind_eq_ok.mpr ⟨length, hlength, ?_⟩⟩⟩
    rw [if_neg (not_not.mpr rfl)]
    rfl

/-- Reshaping changes the shape and the strides only. -/
theorem ArrayState.reshape_eq_ok {array updated : ArrayState} {shape : Value}
    (h : array.reshape shape = .ok updated) :
    ∃ extents strides, updated = { array with shape := extents, strides } := by
  obtain ⟨-, extents, length, -, -, -, rfl⟩ := reshape_iff.mp h
  exact ⟨extents, _, rfl⟩

namespace Engine

variable {touched : Nat → Prop} {engine : Engine} {buffer : Nat} {array : ArrayState}

/-! ### Updates of an array -/

theorem updateArray_cases (engine : Engine) (buffer : Nat)
    (update : ArrayState → Except Failure ArrayState) :
    (∃ failure, update (engine.array buffer) = .error failure ∧
      outcomeOf (Action.updateArray buffer update) engine = .error failure ∧
      stateAfter (Action.updateArray buffer update) engine = engine) ∨
    (∃ updated, update (engine.array buffer) = .ok updated ∧
      outcomeOf (Action.updateArray buffer update) engine = .ok ⟨⟩ ∧
      stateAfter (Action.updateArray buffer update) engine = engine.setArray buffer updated) := by
  simp only [Action.updateArray, outcomeOf_bind, stateAfter_bind, outcomeOf_array,
    stateAfter_array, outcomeOf_actionOfExcept, stateAfter_actionOfExcept]
  cases update (engine.array buffer) with
  | error failure => exact .inl ⟨failure, rfl, rfl, rfl⟩
  | ok updated => exact .inr ⟨updated, rfl, rfl, rfl⟩

/-- Replacing an array by one whose copies fit together too. -/
theorem steady_setArray {updated : ArrayState}
    (h : ∀ old, engine.arrays.lookup buffer = some old → old.CoherentOn engine.device buffer →
      updated.CoherentOn engine.device buffer ∧ (¬ touched buffer →
        (if updated.hostDirty = true then updated.storage else engine.device.bytesOf buffer) =
          engine.content buffer)) :
    Steady touched engine (engine.setArray buffer updated) := by
  refine .of_array buffer (Nat.le_refl _) (fun other hother ↦ lookup_setArray_of_ne _ hother)
    (fun _ _ _ ↦ rfl) ?_
  intro array hlookup hcoherent
  have hmapped := hlookup
  rw [lookup_setArray] at hmapped
  obtain ⟨old, hold, harray⟩ := Option.map_eq_some_iff.mp hmapped
  rw [if_pos rfl] at harray
  subst harray
  obtain ⟨hcopies, hcontent⟩ := h old hold (hcoherent buffer old hold)
  refine ⟨hcopies, fun htouched ↦ ⟨⟨old, hold⟩, ?_⟩⟩
  rw [content_of_lookup hlookup]
  exact hcontent htouched

theorem steady_reshape (buffer : Nat) (extents : List Value) :
    Moves (Steady touched) (Action.reshape buffer extents) := by
  have hreshape (shape : Value) :
      Moves (Steady touched) (Action.updateArray buffer (·.reshape shape)) := by
    intro engine
    rcases updateArray_cases engine buffer (·.reshape shape) with
      ⟨failure, -, -, h⟩ | ⟨updated, hupdated, -, h⟩
    · rw [h]
      exact .refl engine
    · rw [h]
      obtain ⟨extents, strides, rfl⟩ := ArrayState.reshape_eq_ok hupdated
      refine steady_setArray fun old hold hcopies ↦ ?_
      rw [array_of_lookup hold]
      refine ⟨⟨hcopies.pos, hcopies.le, hcopies.size, hcopies.exclusive, hcopies.agreeing,
        hcopies.idle⟩, fun _ ↦ ?_⟩
      rw [content_of_lookup hold]
  exact hreshape _

/-! ### Storing -/

/-- Storing in an array without news on the device. -/
theorem steady_updateArray {update : ArrayState → Except Failure ArrayState}
    (hstores : ∀ array : ArrayState, array.StoresBy update)
    (hclean : (engine.array buffer).deviceDirty = false) :
    Steady (· = buffer) engine (stateAfter (Action.updateArray buffer update) engine) := by
  rcases updateArray_cases engine buffer update with
    ⟨failure, -, -, h⟩ | ⟨updated, hupdated, -, h⟩
  · rw [h]
    exact .refl engine
  · rw [h]
    obtain ⟨storage, hsize, rfl⟩ := (hstores _).eq_ok hupdated
    refine steady_setArray fun old hold hcopies ↦ ?_
    rw [array_of_lookup hold] at hsize hclean ⊢
    refine ⟨⟨hcopies.pos, hcopies.le, hsize.trans hcopies.size, ?_, ?_, hcopies.idle⟩,
      fun h ↦ absurd rfl h⟩
    · rintro ⟨-, h⟩
      rw [hclean] at h
      cases h
    · intro h
      cases h

/-- An update that loads the array first if the device has news. -/
def loadThenUpdate (buffer : Nat) (update : ArrayState → Except Failure ArrayState) :
    Action Unit := do
  if (← Action.array buffer).deviceDirty then Action.loadBlocking buffer
  Action.updateArray buffer update

/-- A load is asked for only when there is news, which changes nothing. -/
theorem loadThenUpdate_run (engine : Engine) (buffer : Nat)
    (update : ArrayState → Except Failure ArrayState) :
    stateAfter (loadThenUpdate buffer update) engine =
        stateAfter (do Action.loadBlocking buffer; Action.updateArray buffer update) engine ∧
      outcomeOf (loadThenUpdate buffer update) engine =
        outcomeOf (do Action.loadBlocking buffer; Action.updateArray buffer update) engine := by
  simp only [loadThenUpdate, outcomeOf_bind, stateAfter_bind, outcomeOf_array, stateAfter_array]
  cases hdirty : (engine.array buffer).deviceDirty with
  | true =>
    rw [if_pos rfl, outcomeOf_bind, stateAfter_bind]
    exact ⟨rfl, rfl⟩
  | false =>
    obtain ⟨houtcome, hstate⟩ := loadBlocking_of_clean hdirty
    rw [houtcome, hstate]
    exact ⟨rfl, rfl⟩

theorem steady_loadThenUpdate {update : ArrayState → Except Failure ArrayState}
    (hstores : ∀ array : ArrayState, array.StoresBy update) :
    Moves (Steady (· = buffer)) (loadThenUpdate buffer update) := by
  intro engine
  rw [(loadThenUpdate_run engine buffer update).1, stateAfter_bind]
  have hloaded : Steady (· = buffer) engine (stateAfter (Action.loadBlocking buffer) engine) :=
    steady_loadBlocking buffer engine
  cases houtcome : outcomeOf (Action.loadBlocking buffer) engine with
  | error failure => exact hloaded
  | ok done =>
    exact hloaded.trans (steady_updateArray hstores (deviceDirty_of_loadBlocking houtcome))

/-- Storing on an active engine stores in the content of the array, as if that were its only
copy. -/
theorem loadThenUpdate_eq_stored {update : ArrayState → Except Failure ArrayState}
    (hstores : ∀ array : ArrayState, array.StoresBy update) (hcoherent : engine.Coherent)
    (hactive : engine.lost = none) (hlookup : engine.arrays.lookup buffer = some array) :
    outcomeOf (loadThenUpdate buffer update) engine =
        (update (engine.single buffer)).map (fun _ ↦ ⟨⟩) ∧
      ∀ stored, update (engine.single buffer) = .ok stored →
        ((stateAfter (loadThenUpdate buffer update) engine).content buffer).Same
          stored.storage := by
  obtain ⟨hstate, hresult⟩ := loadThenUpdate_run engine buffer update
  obtain ⟨houtcome, halike⟩ := alike_of_loadBlocking hcoherent hactive hlookup
  rw [hstate, hresult, outcomeOf_bind, stateAfter_bind, houtcome]
  dsimp only
  set loaded := stateAfter (Action.loadBlocking buffer) engine
  rcases (hstores (engine.single buffer)).alike halike with ⟨failure, hsingle, hother⟩ |
    ⟨stored, stored', hsingle, hother, hsame⟩
  · rcases updateArray_cases loaded buffer update with
      ⟨failure', hfails, houtcome', -⟩ | ⟨updated, hupdated, -, -⟩
    · rw [hother] at hfails
      cases hfails
      rw [houtcome', hsingle]
      exact ⟨rfl, fun _ h ↦ by cases h⟩
    · rw [hother] at hupdated
      cases hupdated
  · rcases updateArray_cases loaded buffer update with
      ⟨failure', hfails, -, -⟩ | ⟨updated, hupdated, houtcome', hstate'⟩
    · rw [hother] at hfails
      cases hfails
    · rw [hother] at hupdated
      cases hupdated
      rw [houtcome', hstate', hsingle]
      refine ⟨rfl, fun found hfound ↦ ?_⟩
      cases hfound
      obtain ⟨old, hold⟩ := exists_lookup_of_loadBlocking hlookup
      have hdirty : stored'.hostDirty = true := by
        obtain ⟨storage, -, rfl⟩ := (hstores _).eq_ok hother
        rfl
      rw [content, array_setArray_self stored' hold, if_pos hdirty]
      obtain ⟨storage, rfl, hstorage⟩ := hsame
      exact hstorage

/-! ### Reading -/

/-- The elements read from an array on an active engine are those of its content. -/
theorem readElements_eq_view (hcoherent : engine.Coherent) (hactive : engine.lost = none)
    (hlookup : engine.arrays.lookup buffer = some array) :
    outcomeOf (Action.readElements buffer) engine = (engine.single buffer).viewElements := by
  obtain ⟨houtcome, halike⟩ := alike_of_loadBlocking hcoherent hactive hlookup
  simp only [Action.readElements, outcomeOf_bind, houtcome, outcomeOf_array,
    outcomeOf_actionOfExcept]
  exact halike.viewElements

theorem steady_load (buffer : Nat) : Moves (Steady touched) (Action.load buffer) := by
  intro engine hcoherent
  have hidle : (engine.array buffer).loading = .idle := by
    cases hlookup : engine.arrays.lookup buffer with
    | some array =>
      rw [array_of_lookup hlookup]
      exact (hcoherent buffer array hlookup).idle
    | none =>
      rw [Engine.array, hlookup]
      rfl
  exact ((steady_loadBlocking buffer engine).trans
    (.of_memory_eq (memory_load hidle).1)) hcoherent

/-- The element got from an array on an active engine is that of its content. -/
theorem getElement_eq_elementAt (hcoherent : engine.Coherent) (hactive : engine.lost = none)
    (hlookup : engine.arrays.lookup buffer = some array) (index : List Value) :
    outcomeOf (Action.getElement buffer index) engine =
      (engine.single buffer).elementAt index := by
  obtain ⟨-, halike⟩ := alike_of_loadBlocking hcoherent hactive hlookup
  have hidle : (engine.array buffer).loading = .idle := by
    rw [array_of_lookup hlookup]
    exact (hcoherent buffer array hlookup).idle
  obtain ⟨hmemory, hdone⟩ := memory_load hidle
  simp only [Action.getElement, Action.hostElement, outcomeOf_bind, hdone hactive,
    outcomeOf_array, outcomeOf_actionOfExcept, array_eq_of_memory_eq hmemory]
  exact halike.elementAt index

end Engine

end ComputeArray
