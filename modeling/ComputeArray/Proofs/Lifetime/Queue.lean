import ComputeArray.Engine.Lifetime
import ComputeArray.Proofs.Lifetime.Order
import ComputeArray.Proofs.Memory.Submit

/-!
# Actions on the queue

Submissions, read-backs, waits, releases and collections keep an engine orderly, if whatever is
submitted binds and copies usable buffers only.
-/

set_option autoImplicit false

namespace ComputeArray

open Engine

/-- All of the arrays are live. -/
def AllLive (buffers : List Nat) : Assertion :=
  fun _ engine ↦ ∀ buffer ∈ buffers, engine.Live buffer

theorem stable_allLive (buffers : List Nat) : Stable (AllLive buffers) :=
  fun _ _ _ _ hundisturbed h buffer hmem ↦ hundisturbed.calm.live (h buffer hmem)

/-- The buffers passes bind and copies move. -/
def usedBy (dispatches : List Dispatch) (copies : List (Nat × Nat)) : List Nat :=
  dispatches.flatMap (fun dispatch ↦ dispatch.bindings.map fun binding ↦ binding.1.buffer) ++
    copies.flatMap fun copy ↦ [copy.1, copy.2]

/-- All of the buffers are usable. -/
def AllUsable (buffers : List Nat) : Assertion :=
  fun history engine ↦ ∀ buffer ∈ buffers, engine.Usable history buffer

/-- All of the buffers are spare. -/
def AllSpare (buffers : List Nat) : Assertion :=
  fun history engine ↦ ∀ buffer ∈ buffers, engine.Spare history buffer

/-- A read-back has been copied by the last submission, into a buffer of its own. -/
def Staged (readBack : ReadBack) : Assertion :=
  fun history engine ↦ engine.Spare history readBack.staging ∧
    readBack.serial = history.submissions

variable {α : Type} {buffers spares : List Nat} {buffer : Nat} {dispatches : List Dispatch}
  {copies : List (Nat × Nat)}

theorem Stable.and {P Q : Assertion} (hP : Stable P) (hQ : Stable Q) :
    Stable fun history engine ↦ P history engine ∧ Q history engine :=
  fun _ _ _ _ hundisturbed h ↦ ⟨hP _ _ _ _ hundisturbed h.1, hQ _ _ _ _ hundisturbed h.2⟩

theorem stable_allUsable (buffers : List Nat) : Stable (AllUsable buffers) :=
  fun _ _ _ _ hundisturbed h buffer hmem ↦ hundisturbed.usable (h buffer hmem)

theorem stable_allSpare (buffers : List Nat) : Stable (AllSpare buffers) :=
  fun _ _ _ _ hundisturbed h buffer hmem ↦ hundisturbed.spare (h buffer hmem)

theorem stable_underWay (readBack : ReadBack) :
    Stable fun history engine ↦ engine.UnderWay history readBack :=
  fun _ _ _ _ hundisturbed h ↦ hundisturbed.underWay h

theorem usedBy_cons (dispatch : Dispatch) (dispatches : List Dispatch) (copies : List (Nat × Nat)) :
    usedBy (dispatch :: dispatches) copies =
      dispatch.bindings.map (fun binding ↦ binding.1.buffer) ++ usedBy dispatches copies := by
  rw [usedBy, List.flatMap_cons, List.append_assoc, usedBy]

/-- Commands use what their passes bind and their copies move. -/
theorem mem_usedBy_of_prepare {engine : Engine} {commands : List Command}
    (h : outcomeOf (Action.prepare dispatches copies) engine = .ok commands) :
    ∀ command ∈ commands, ∀ buffer ∈ command.buffers, buffer ∈ usedBy dispatches copies := by
  obtain ⟨passes, moves, _, _, rfl, -, -, hpasses, -, hmoves, -⟩ := prepare_eq_ok h
  intro command hmem buffer hused
  rw [usedBy, List.mem_append]
  rcases List.mem_append.mp hmem with hpass | hmove
  · obtain ⟨dispatch, hdispatch, start, hencode⟩ := exists_of_outcomeOf_mapM hpasses command hpass
    simp only [Action.encode, outcomeOf_bind_eq_ok] at hencode
    obtain ⟨_, -, _, -, _, -, heq⟩ := hencode
    cases heq
    refine .inl (List.mem_flatMap.mpr ⟨dispatch, hdispatch, ?_⟩)
    simpa [Command.buffers] using hused
  · obtain ⟨copy, hcopy, start, hencode⟩ := exists_of_outcomeOf_mapM hmoves command hmove
    obtain ⟨size, rfl⟩ := eq_copy_of_encodeCopy hencode
    exact .inr (List.mem_flatMap.mpr ⟨copy, hcopy, hused⟩)

namespace KeepsOrder

/-! ### Waits -/

/-- A call that ends a wait. -/
theorem wait (call : Call) (hcall : (Event.call call).IsWait) {P Q : Assertion}
    (h : ∀ history engine, engine.Orderly history → P history engine →
      Q (.call call :: history) { engine with device := engine.device.record call }) :
    KeepsOrder P (Action.changeDevice (Device.record call)) fun _ ↦ Q := by
  intro history engine horderly hP
  refine ⟨_, .of_calls [call] ?_ rfl (horderly.wait hcall rfl), fun _ _ ↦ h _ _ horderly hP⟩
  exact Array.toList_push

/-- Destructions of what waits for a serial that is known to be done. -/
theorem retire (serial : Int) : KeepsOrder
    (fun history engine ↦ serial ≤ history.observed ∧ AllLive buffers history engine)
    (modify (Engine.retire serial)) fun _ ↦ AllLive buffers := by
  intro history engine horderly hP
  obtain ⟨hcalls, hafter⟩ := horderly.retire hP.1
  have hcount : (engine.retire serial).device.buffers.size = engine.device.buffers.size := by
    rw [device_retire, foldl_destroyBuffer]
  exact ⟨_, .of_calls _ hcalls hcount hafter, fun _ _ ↦ hP.2⟩

/-- A blocking wait for the queue, and the destructions that waited for it. -/
theorem drain (serial : Nat) : KeepsOrder
    (fun history engine ↦ serial = engine.serial ∧ AllLive buffers history engine)
    (do
      Action.changeDevice (Device.record (.awaitQueue true))
      modify (Engine.retire serial)) fun _ ↦ AllLive buffers := by
  refine (wait (.awaitQueue true) trivial ?_).bind fun _ ↦ retire serial
  rintro history engine horderly ⟨rfl, hlive⟩
  exact ⟨Int.ofNat_le.mpr (Nat.le_of_eq horderly.serial), hlive⟩

theorem synchronize : KeepsOrder (AllLive buffers) (Action.synchronize true)
    fun _ ↦ AllLive buffers := by
  refine assertActive.bind fun _ ↦ get_eq.bind fun found ↦ ?_
  exact (drain found.serial).pre fun _ _ _ h ↦ ⟨h.1 ▸ rfl, h.2⟩

/-! ### Submissions -/

theorem submitCommands {commands : List Command} : KeepsOrder
    (fun history engine ↦ (∀ command ∈ commands, AllUsable command.buffers history engine) ∧
      AllSpare spares history engine ∧ AllLive buffers history engine)
    (Action.submitCommands commands)
    fun serial history engine ↦ serial = engine.serial ∧ AllSpare spares history engine ∧
      AllLive buffers history engine := by
  rintro history engine horderly ⟨husable, hspare, hlive⟩
  have hcount : (engine.device.submit commands).buffers.size = engine.device.buffers.size :=
    (Device.sameOutside_submit commands engine.device).count
  refine ⟨_, .of_calls [.submit commands] ?_ hcount (horderly.submit husable), ?_⟩
  · exact (congrArg Array.toList (Device.calls_submit commands engine.device)).trans
      Array.toList_push
  · rintro _ ⟨⟩
    refine ⟨rfl, fun spare hmem ↦ ?_, hlive⟩
    obtain ⟨⟨hle, hunspent, hfree⟩, hapart⟩ := hspare spare hmem
    exact ⟨⟨hcount ▸ hle, hunspent, hfree⟩, hapart⟩

theorem settle (serial : Nat) (helpers : List Nat) : KeepsOrder
    (fun history engine ↦ serial = engine.serial ∧ AllSpare helpers history engine ∧
      AllLive buffers history engine)
    (Action.settle serial helpers) fun _ ↦ AllLive buffers := by
  have hqueue : KeepsOrder
      (fun history engine ↦ serial = engine.serial ∧ AllSpare helpers history engine ∧
        AllLive buffers history engine)
      (modify fun engine ↦ { engine with
        pending := engine.pending ++ helpers.map fun buffer ↦ (serial, buffer) })
      fun _ history engine ↦ serial = engine.serial ∧ AllLive buffers history engine := by
    rintro history engine horderly ⟨rfl, hspare, hlive⟩
    have hafter := horderly.queue helpers fun helper hmem ↦
      ⟨(hspare helper hmem).le, not_live_of_tenure_eq_none (hspare helper hmem).apart⟩
    exact ⟨history, .of_device hafter rfl, fun _ _ ↦ ⟨rfl, hlive⟩⟩
  refine hqueue.bind fun _ ↦ get.bind fun _ ↦ ?_
  exact ite (fun _ ↦ drain serial) fun _ ↦ (done _).pre fun _ _ _ h ↦ h.2

/-- A submission keeps the engine orderly if it uses usable buffers only, and spare ones for its
helpers. -/
theorem submit (helpers : List Nat) : KeepsOrder
    (fun history engine ↦ AllUsable (usedBy dispatches copies) history engine ∧
      AllSpare helpers history engine ∧ AllLive buffers history engine)
    (Action.submit dispatches helpers copies) fun _ ↦ AllLive buffers := by
  have hstable := (stable_allUsable (usedBy dispatches copies)).and
    ((stable_allSpare helpers).and (stable_allLive buffers))
  have hprepare : KeepsOrder
      (fun history engine ↦ AllUsable (usedBy dispatches copies) history engine ∧
        AllSpare helpers history engine ∧ AllLive buffers history engine)
      (Action.prepare dispatches copies)
      fun commands history engine ↦
        (∀ command ∈ commands, AllUsable command.buffers history engine) ∧
          AllSpare helpers history engine ∧ AllLive buffers history engine := by
    refine of_calm (calm_prepare _ _) fun history engine later commands _ hP hundisturbed hok ↦ ?_
    obtain ⟨husable, hrest⟩ := hstable _ _ _ _ hundisturbed hP
    exact ⟨fun command hmem buffer hused ↦
      husable buffer (mem_usedBy_of_prepare hok command hmem buffer hused), hrest⟩
  have hmarks (commands : List Command) (marked : List Nat) : KeepsOrder
      (fun history engine ↦ (∀ command ∈ commands, AllUsable command.buffers history engine) ∧
        AllSpare helpers history engine ∧ AllLive buffers history engine)
      (marked.forM Action.markDeviceDirty)
      fun _ history engine ↦ (∀ command ∈ commands, AllUsable command.buffers history engine) ∧
        AllSpare helpers history engine ∧ AllLive buffers history engine := by
    refine calm (.forM _ fun buffer _ ↦ calm_markDeviceDirty buffer) (.and ?_
      ((stable_allSpare helpers).and (stable_allLive buffers)))
    exact fun _ _ _ _ hundisturbed h command hmem ↦
      stable_allUsable _ _ _ _ _ hundisturbed (h command hmem)
  refine assertActive.bind fun _ ↦ hprepare.bind fun commands ↦ ?_
  refine ((hmarks commands _).bind fun _ ↦ (hmarks commands _).bind fun _ ↦ submitCommands).bind
    fun serial ↦ (settle serial helpers).bind fun _ ↦ ?_
  exact done serial

/-- A submission of live arrays. -/
theorem submit_of_live (h : usedBy dispatches copies ⊆ buffers) :
    KeepsOrder (AllLive buffers) (Action.submit dispatches [] copies) fun _ ↦ AllLive buffers :=
  (submit []).pre fun _ _ horderly hlive ↦
    ⟨fun buffer hmem ↦ horderly.usable_of_live (hlive buffer (h hmem)), nofun, hlive⟩

/-! ### Read-backs -/

/-- A buffer fresh from the device is spare. -/
theorem created {P : Assertion} {create : Device → Nat × Device}
    (hcalm : Moves Calm (Action.onDevice create))
    (hfresh : ∀ device, (create device).1 = device.buffers.size + 1)
    (hcount : ∀ device, (create device).2.buffers.size = device.buffers.size + 1)
    (hP : Stable P) : KeepsOrder P (Action.onDevice create)
      fun fresh history engine ↦ AllSpare [fresh] history engine ∧ P history engine := by
  refine of_calm hcalm fun history engine later fresh horderly hbefore hundisturbed hok ↦ ?_
  obtain rfl : (create engine.device).1 = fresh := Except.ok.inj hok
  refine ⟨fun buffer hmem ↦ ?_, hP _ _ _ _ hundisturbed hbefore⟩
  obtain rfl := List.mem_singleton.mp hmem
  rw [hfresh]
  exact horderly.spare_of_calm hundisturbed (Nat.lt_succ_self _) (Nat.le_of_eq (hcount _).symm)
    (horderly.tenure_of_lt (Nat.lt_succ_self _))

theorem copyToStaging : KeepsOrder (AllLive (buffer :: buffers)) (Action.copyToStaging buffer)
    fun readBack history engine ↦ Staged readBack history engine ∧
      AllLive (buffer :: buffers) history engine := by
  refine assertActive.bind fun _ ↦ (array buffer).bind fun array ↦ get.bind fun engine ↦
    (created (calm_createBuffer _ _) (fun _ ↦ rfl) (fun _ ↦ Array.size_push _)
      (stable_allLive _)).bind fun staging ↦ ?_
  have hencoder : KeepsOrder
      (fun history engine ↦
        AllSpare [staging] history engine ∧ AllLive (buffer :: buffers) history engine)
      (Action.changeDevice Device.createEncoder)
      fun _ history engine ↦
        AllSpare [staging] history engine ∧ AllLive (buffer :: buffers) history engine :=
    calm (compiles_createEncoder.mono fun _ _ ↦ .of_compiles)
      ((stable_allSpare _).and (stable_allLive _))
  refine hencoder.bind fun _ ↦
    (submitCommands.pre fun history engine horderly h ↦ ⟨?_, h⟩).bind fun serial ↦
      pure fun history engine horderly h ↦
        ⟨⟨h.2.1 staging List.mem_cons_self, h.1.trans horderly.serial⟩, h.2.2⟩
  intro command hmem used hused
  obtain rfl := List.mem_singleton.mp hmem
  simp only [Command.buffers, List.mem_cons, List.not_mem_nil, or_false] at hused
  rcases hused with rfl | rfl
  · exact horderly.usable_of_live (h.2 _ List.mem_cons_self)
  · exact (h.1 _ List.mem_cons_self).toUsable

theorem mapStaging (readBack : ReadBack) (blocking : Bool) : KeepsOrder
    (fun history engine ↦ Staged readBack history engine ∧ AllLive buffers history engine)
    (Action.mapStaging readBack blocking)
    fun _ history engine ↦ engine.UnderWay history readBack ∧ AllLive buffers history engine := by
  rintro history engine horderly ⟨⟨hspare, hserial⟩, hlive⟩
  obtain ⟨staging, serial, version⟩ := readBack
  obtain rfl : serial = history.submissions := hserial
  set device := engine.device.record (.map staging (engine.device.sizeOf staging) blocking)
  have hcount : device.buffers.size = engine.device.buffers.size := rfl
  obtain ⟨hafter, hunderWay⟩ :=
    horderly.map (engine.device.sizeOf staging) version blocking hspare hcount
  exact ⟨_, .of_calls [_] Array.toList_push rfl hafter, fun _ _ ↦ ⟨hunderWay, hlive⟩⟩

/-- The end of a read-back destroys its staging buffer, and what waits for the copy. -/
theorem finishReadBack (readBack : ReadBack) : KeepsOrder
    (fun history engine ↦ engine.UnderWay history readBack ∧ AllLive buffers history engine)
    (Action.finishReadBack buffer readBack) fun _ ↦ AllLive buffers := by
  have hdestroy : KeepsOrder
      (fun history engine ↦ engine.UnderWay history readBack ∧
        history.observed = readBack.serial ∧ AllLive buffers history engine)
      (Action.changeDevice (Device.record (.destroyBuffer readBack.staging)))
      fun _ history engine ↦ (readBack.serial : Int) ≤ history.observed ∧
        AllLive buffers history engine := by
    rintro history engine horderly ⟨hunderWay, hobserved, hlive⟩
    set device := engine.device.record (.destroyBuffer readBack.staging)
    have hcount : device.buffers.size = engine.device.buffers.size := rfl
    have hafter := horderly.destroyBuffer hunderWay.le
      (not_live_of_tenure_eq_none hunderWay.apart) (hobserved ▸ hunderWay.uses) hcount
    exact ⟨_, .of_calls [_] Array.toList_push rfl hafter,
      fun _ _ ↦ ⟨Int.ofNat_le.mpr (Nat.le_of_eq hobserved.symm), hlive⟩⟩
  refine get.bind fun engine ↦ ?_
  have hstored : KeepsOrder
      (fun history engine ↦ engine.UnderWay history readBack ∧ AllLive buffers history engine)
      (Action.changeArray buffer fun array ↦
        { array with storage := engine.device.bytesOf readBack.staging })
      fun _ history engine ↦ engine.UnderWay history readBack ∧ AllLive buffers history engine :=
    calm (calm_changeArray buffer _ (fun _ ↦ rfl) fun _ ↦ rfl)
      ((stable_underWay readBack).and (stable_allLive buffers))
  refine hstored.bind fun _ ↦ ?_
  refine (wait (.unmap _) trivial ?_).bind fun _ ↦ hdestroy.bind fun _ ↦ (retire _).bind fun _ ↦ ?_
  · rintro history engine horderly ⟨⟨hle, hapart, hmapped, huses⟩, hlive⟩
    exact ⟨⟨hle, hapart, hmapped, huses⟩, hmapped, hlive⟩
  · refine calm (calm_changeArray buffer _ (fun array ↦ ?_) fun array ↦ ?_) (stable_allLive buffers)
    · split <;> rfl
    · split <;> rfl

theorem loadBlocking : KeepsOrder (AllLive (buffer :: buffers)) (Action.loadBlocking buffer)
    fun _ ↦ AllLive (buffer :: buffers) := by
  refine (array buffer).bind fun array ↦ ite (fun _ ↦ done _) fun _ ↦ ?_
  exact copyToStaging.bind fun readBack ↦ (mapStaging readBack true).bind fun _ ↦
    finishReadBack readBack

/-! ### Asynchronous loads -/

/-- A change of how far a load has come. -/
theorem setLoading {P Q : Assertion} {loading : Loading}
    (hreadBack : ∀ history engine, P history engine →
      ∀ readBack, loading.readBack? = some readBack → engine.UnderWay history readBack)
    (hQ : ∀ history engine, P history engine →
      Q history (engine.setArray buffer { engine.array buffer with loading })) :
    KeepsOrder P (Action.setLoading buffer loading) fun _ ↦ Q := by
  intro history engine horderly hP
  have hafter : Orderly history (engine.setArray buffer { engine.array buffer with loading }) :=
    horderly.setArray id (hreadBack history engine hP)
  exact ⟨history, .of_device hafter rfl, fun _ _ ↦ hQ _ _ hP⟩

theorem allLive_setLoading {loading : Loading} {history : History} {engine : Engine}
    (h : AllLive buffers history engine) :
    AllLive buffers history (engine.setArray buffer { engine.array buffer with loading }) := by
  intro other hmem
  obtain ⟨hfound, hreleased⟩ := live_iff.mp (h other hmem)
  refine live_setArray.mpr ⟨hfound, ?_⟩
  split
  · next hother => rw [← hother, hreleased]
  · exact hreleased

theorem startLoad : KeepsOrder (AllLive (buffer :: buffers)) (Action.startLoad buffer)
    fun _ ↦ AllLive (buffer :: buffers) := by
  have hidle : KeepsOrder (AllLive (buffer :: buffers)) (Action.setLoading buffer .idle)
      fun _ ↦ AllLive (buffer :: buffers) :=
    setLoading (fun _ _ _ _ h ↦ by cases h) fun _ _ ↦ allLive_setLoading
  have hcopying (readBack : ReadBack) : KeepsOrder
      (fun history engine ↦ engine.UnderWay history readBack ∧
        AllLive (buffer :: buffers) history engine)
      (Action.setLoading buffer (.copying readBack)) fun _ ↦ AllLive (buffer :: buffers) := by
    refine setLoading (fun _ _ hP found hfound ↦ ?_) fun _ _ hP ↦ allLive_setLoading hP.2
    cases hfound
    exact hP.1
  refine (array buffer).bind fun array ↦ ?_
  split
  · exact hidle.bind fun _ ↦ copyToStaging.bind fun readBack ↦
      (mapStaging readBack false).bind fun _ ↦ (hcopying readBack).bind fun _ ↦ done _
  · exact done _

theorem finishLoad : KeepsOrder (AllLive buffers) (Action.finishLoad buffer)
    fun _ ↦ AllLive buffers := by
  have hidle (readBack : ReadBack) : KeepsOrder
      (fun history engine ↦ engine.UnderWay history readBack ∧ AllLive buffers history engine)
      (Action.setLoading buffer .idle)
      fun _ history engine ↦ engine.UnderWay history readBack ∧ AllLive buffers history engine := by
    refine setLoading (fun _ _ _ _ h ↦ by cases h) fun _ _ hP ↦ ⟨?_, allLive_setLoading hP.2⟩
    exact ⟨hP.1.le, tenure_setArray_eq_none.mpr hP.1.apart, hP.1.mapped, hP.1.uses⟩
  refine (array_eq buffer).bind fun array ↦ ?_
  split
  · next readBack hloading =>
    refine ((hidle readBack).bind fun _ ↦ finishReadBack readBack).pre
      fun history engine horderly h ↦ ⟨?_, h.2⟩
    obtain ⟨rfl, -⟩ := h
    exact horderly.underWay_of_copying hloading
  · exact (done _).pre fun _ _ _ h ↦ h.2

theorem load : KeepsOrder (AllLive (buffer :: buffers)) (Action.load buffer)
    fun _ ↦ AllLive (buffer :: buffers) :=
  (calm (calm_requestLoad buffer) (stable_allLive _)).bind fun _ ↦ startLoad.bind fun _ ↦
    finishLoad

/-! ### Stores -/

theorem loadThenUpdate {update : ArrayState → Except Failure ArrayState}
    (hstores : ∀ array : ArrayState, array.StoresBy update) :
    KeepsOrder (AllLive (buffer :: buffers)) (Engine.loadThenUpdate buffer update)
      fun _ ↦ AllLive (buffer :: buffers) := by
  have hupdate : KeepsOrder (AllLive (buffer :: buffers)) (Action.updateArray buffer update)
      fun _ ↦ AllLive (buffer :: buffers) :=
    calm (calm_updateArray_stores hstores) (stable_allLive _)
  refine (array buffer).bind fun array ↦ ite (fun _ ↦ ?_) fun _ ↦ hupdate
  exact loadBlocking.bind fun _ ↦ hupdate

theorem setValue (value : Value) (index : List Value) :
    KeepsOrder (AllLive (buffer :: buffers)) (Action.setValue buffer value index)
      fun _ ↦ AllLive (buffer :: buffers) :=
  loadThenUpdate fun array ↦ array.storesBy_setValue index value

theorem setElements (values : List Nat) :
    KeepsOrder (AllLive (buffer :: buffers)) (Action.setElements buffer values)
      fun _ ↦ AllLive (buffer :: buffers) :=
  loadThenUpdate fun array ↦ array.storesBy_setAll values

/-! ### Releases -/

theorem release (hother : buffer ∉ buffers) : KeepsOrder
    (fun history engine ↦ buffer ≤ engine.device.buffers.size ∧ AllLive buffers history engine)
    (modify (Engine.release buffer)) fun _ ↦ AllLive buffers := by
  rintro history engine horderly ⟨hle, hlive⟩
  refine ⟨history, .of_device (horderly.release hle) (device_release buffer engine),
    fun _ _ other hmem ↦ ?_⟩
  exact (live_release (ne_of_mem_of_not_mem hmem hother)).mpr (hlive other hmem)

theorem releaseAll {between : List Nat} (hother : ∀ other ∈ between, other ∉ buffers) :
    KeepsOrder (AllLive (between ++ buffers))
      (modify fun engine ↦ between.foldl (fun engine buffer ↦ engine.release buffer) engine)
      fun _ ↦ AllLive buffers := by
  intro history engine horderly hlive
  have hafter := horderly.foldl_release fun other hmem ↦
    horderly.le_of_live (hlive other (List.mem_append_left buffers hmem))
  refine ⟨history, .of_device hafter (device_foldl_release between engine), fun _ _ other hmem ↦ ?_⟩
  exact (live_foldl_release fun hbetween ↦ hother other hbetween hmem).mpr
    (hlive other (List.mem_append_right between hmem))

/-- What nothing leads to any more is released. -/
theorem collect (arrays generators : List Nat) : KeepsOrder (fun _ _ ↦ True)
    (modify (Engine.collect arrays generators)) fun _ _ _ ↦ True := by
  intro history engine horderly _
  have hgenerators : (engine.keepGenerators generators).Orderly history :=
    horderly.setGenerators fun entry hmem ↦ horderly.kept entry (List.mem_filter.mp hmem).1
  have hkeep (buffers : List Nat) (start : Engine) (hstart : start.Orderly history) :
      (start.keepArrays buffers).Orderly history ∧
        (start.keepArrays buffers).device = start.device := by
    set lapsed := (start.arrays.map Prod.fst).filter fun buffer ↦ !buffers.contains buffer
    have hreleased := hstart.foldl_release fun buffer (hmem : buffer ∈ lapsed) ↦
      hstart.le_of_mem_keys (List.mem_filter.mp hmem).1
    refine ⟨hreleased.filter fun buffer ↦ buffers.contains buffer, ?_⟩
    exact device_foldl_release lapsed start
  obtain ⟨hafter, hdevice⟩ := hkeep _ _ hgenerators
  exact ⟨history, .of_device hafter hdevice, fun _ _ ↦ trivial⟩

/-! ### Losses -/

theorem markLost_engine (wanted : Bool) (reason message : Value) :
    KeepsOrder (AllLive buffers) (modify (Engine.markLost wanted reason message))
      fun _ ↦ AllLive buffers := by
  intro history engine horderly hlive
  rw [stateAfter_modify]
  rcases Engine.markLost_cases wanted reason message engine with ⟨-, hsame⟩ | ⟨-, log, hmarked⟩
  · rw [hsame]
    exact ⟨history, .refl horderly, fun _ _ ↦ hlive⟩
  · rw [hmarked]
    exact ⟨history, .of_device (horderly.abandon _ _) rfl, fun _ _ ↦ hlive⟩

theorem markLost (arguments : List Value) :
    KeepsOrder (AllLive buffers) (Action.markLost arguments) fun _ ↦ AllLive buffers := by
  refine (ofExcept _).bind fun values ↦ get.bind fun engine ↦ ite (fun _ ↦ done _) fun _ ↦ ?_
  exact (ofExcept _).bind fun wanted ↦ markLost_engine _ _ _

theorem destroy : KeepsOrder (AllLive buffers) Action.destroy fun _ ↦ AllLive buffers := by
  have hset (found : Engine) (device : Device) (hdestroy : found.device.destroy = .ok device) :
      KeepsOrder (fun history engine ↦ found = engine ∧ AllLive buffers history engine)
        (set { found with device }) fun _ ↦ AllLive buffers := by
    rintro history engine horderly ⟨rfl, hlive⟩
    have hcalm : Calm found { found with device } := by
      rw [Device.destroy_eq_ok hdestroy]
      exact .of_arrays (.of_push rfl trivial) (Nat.le_refl _) rfl rfl rfl rfl
    obtain ⟨later, hadvances, hundisturbed⟩ := Advances.of_calm horderly hcalm
    exact ⟨later, hadvances, fun _ _ ↦ stable_allLive _ _ _ _ _ hundisturbed hlive⟩
  refine get_eq.bind fun found ↦ ite (fun _ ↦ (done _).pre fun _ _ _ h ↦ h.2) fun _ ↦ ?_
  split
  · exact throw _
  · next device hdestroy =>
    exact (hset found device hdestroy).bind fun _ ↦ markLost_engine _ _ _

/-! ### Generators -/

/-- Generators keep no samples in the array of their streams. -/
def KeptApart (state : Nat) (generator : Generator) : Assertion :=
  fun _ engine ↦ ∀ samples, generator.kept = some samples →
    samples.2 ≠ state ∧ samples.2 ≤ engine.device.buffers.size

theorem keptApart_generator {history : History} {engine : Engine}
    (horderly : engine.Orderly history) (state : Nat) :
    KeptApart state (engine.generator state) history engine := by
  intro samples hkept
  rw [Engine.generator] at hkept
  cases hlookup : engine.generators.lookup state with
  | none =>
    rw [hlookup] at hkept
    cases hkept
  | some generator =>
    rw [hlookup] at hkept
    exact horderly.kept (state, generator) (mem_of_lookup hlookup) samples hkept

theorem generator (state : Nat) : KeepsOrder (AllLive buffers) (Action.generator state)
    fun generator history engine ↦ KeptApart state generator history engine ∧
      AllLive buffers history engine := by
  refine get_eq.bind fun found ↦ pure fun history engine horderly h ↦ ?_
  obtain ⟨rfl, hlive⟩ := h
  exact ⟨keptApart_generator horderly state, hlive⟩

theorem orderly_setGenerator {history : History} {engine : Engine} {state : Nat}
    {generator : Generator} (horderly : engine.Orderly history)
    (hkept : KeptApart state generator history engine) :
    (engine.setGenerator state generator).Orderly history := by
  refine horderly.setGenerators fun entry hmem ↦ ?_
  obtain ⟨⟨key, old⟩, hold, rfl⟩ := List.mem_map.mp hmem
  dsimp only
  split
  · next hkey => exact hkey ▸ hkept
  · exact horderly.kept (key, old) hold

theorem setGenerator (state : Nat) (generator : Generator) : KeepsOrder
    (fun history engine ↦ KeptApart state generator history engine ∧
      AllLive buffers history engine)
    (modify (Engine.setGenerator state generator)) fun _ ↦ AllLive buffers := by
  rintro history engine horderly ⟨hkept, hlive⟩
  exact ⟨history, .of_device (orderly_setGenerator horderly hkept) rfl, fun _ _ ↦ hlive⟩

theorem addGenerator (state : Nat) {generator : Generator} (h : generator.kept = none) :
    KeepsOrder (AllLive buffers) (modify (Engine.addGenerator state generator))
      fun _ ↦ AllLive buffers := by
  intro history engine horderly hlive
  have hafter : (engine.addGenerator state generator).Orderly history := by
    refine horderly.setGenerators fun entry hmem ↦ ?_
    rcases List.mem_append.mp hmem with hmem | hmem
    · exact horderly.kept entry hmem
    · obtain rfl := List.mem_singleton.mp hmem
      simp [h]
  exact ⟨history, .of_device hafter rfl, fun _ _ ↦ hlive⟩

/-- Kept samples are not in the array of the streams. -/
theorem takeKept (state : Nat) : KeepsOrder (AllLive buffers) (Action.takeKept state)
    fun kept history engine ↦ (∀ samples, kept = some samples → samples.2 ≠ state) ∧
      (∀ samples, kept = some samples → samples.2 ≤ engine.device.buffers.size) ∧
        AllLive buffers history engine := by
  intro history engine horderly hlive
  have hafter : (engine.setGenerator state
      { engine.generator state with kept := none }).Orderly history :=
    orderly_setGenerator horderly nofun
  have hkept := keptApart_generator horderly state
  refine ⟨history, .of_device hafter rfl, ?_⟩
  rintro _ ⟨⟩
  exact ⟨fun samples h ↦ (hkept samples h).1, fun samples h ↦ (hkept samples h).2, hlive⟩

end KeepsOrder

end ComputeArray
