import ComputeArray.Proofs.Loading.Turn
import ComputeArray.Proofs.Run.Reachable

/-!
# Stored values and loads under way

A store leaves no news on the device, so nothing is loaded for it anymore. But a load that was
requested before goes on, and its end puts the bytes it has staged into the host copy. The stored
values are still what the array shows, however much later, if and only if no such end brings other
bytes (`shows_stored_iff`).
-/

set_option autoImplicit false

namespace ComputeArray

open Engine

variable {engine : Engine} {buffer : Nat} {array old new : ArrayState} {bytes stored : Bytes}

namespace Engine

/-- The host copy of an array is up to date and holds the given bytes, and the device buffer holds
them as soon as the news of the host has been sent. -/
structure Shows (engine : Engine) (buffer : Nat) (bytes : Bytes) : Prop where
  clean : (engine.array buffer).deviceDirty = false
  host : engine.Reflects buffer bytes
  content : (engine.content buffer).Same bytes

/-- The elements read from an array are those it shows. -/
theorem Shows.readElements (h : engine.Shows buffer bytes) :
    outcomeOf (Action.readElements buffer) engine =
      ({ engine.array buffer with storage := bytes } : ArrayState).viewElements := by
  obtain ⟨houtcome, hstate⟩ := loadBlocking_of_clean h.clean
  simp only [Action.readElements, outcomeOf_bind, houtcome, hstate, outcomeOf_array,
    stateAfter_array, outcomeOf_actionOfExcept]
  exact h.host.view

end Engine

namespace Primitive

/-- The primitive does not write the array: neither a caller nor a
kernel changes its content by it. -/
def SparesContent (buffer : Nat) (primitive : Primitive) : Prop :=
  (primitive.Interleaves buffer ∨ primitive = .loadBlocking buffer) ∧ ¬ primitive.Touches buffer

end Primitive

/-! ### Steps -/

/-- Without news on the device, a primitive that spares the content of an array leaves its copies as
they are, or ends a load of it. -/
theorem cases_of_sparesContent {primitive : Primitive} (hreachable : engine.Reachable)
    (hle : buffer ≤ engine.device.buffers.size)
    (hclean : (engine.array buffer).deviceDirty = false) (h : primitive.SparesContent buffer)
    (hnew : (engine.after primitive).arrays.lookup buffer = some new) :
    ∃ old, engine.arrays.lookup buffer = some old ∧ new.deviceDirty = false ∧
      ((∃ readBack, primitive = .finishLoad buffer ∧ old.loading = .copying readBack ∧
          new.storage = engine.device.bytesOf readBack.staging ∧ new.hostDirty = old.hostDirty ∧
            (engine.after primitive).device.bytesOf buffer = engine.device.bytesOf buffer) ∨
        (new.storage = old.storage ∧
          (engine.after primitive).content buffer = engine.content buffer ∧
            (old.loading = .idle → new.loading = .idle))) := by
  obtain ⟨hinterleaves | rfl, htouches⟩ := h
  · obtain ⟨old, hold, hturn⟩ :=
      turn_of_after hreachable.fitting hreachable.faithfulCaches hle hinterleaves hnew
    rw [array_of_lookup hold] at hclean
    refine ⟨old, hold, ?_⟩
    have hkept (loading : Loading) (hmade : new = { old with loading })
        (hbytes : (engine.after primitive).device.bytesOf buffer = engine.device.bytesOf buffer) :
        (engine.after primitive).content buffer = engine.content buffer := by
      rw [content_of_lookup hnew, content_of_lookup hold, hmade, hbytes]
    cases hturn with
    | spared untroubled =>
      exact ⟨untroubled.deviceDirty.trans hclean, .inr ⟨untroubled.storage, untroubled.content,
        untroubled.loading.trans⟩⟩
    | requested idle news =>
      rw [hclean] at news
      cases news
    | abandoned scheduled made bytes =>
      refine ⟨by rw [made, hclean], .inr ⟨by rw [made], hkept _ made bytes, fun hidle ↦ ?_⟩⟩
      rw [scheduled] at hidle
      cases hidle
    | started scheduled made version plain staged bytes =>
      refine ⟨by rw [made, hclean], .inr ⟨by rw [made], hkept _ made bytes, fun hidle ↦ ?_⟩⟩
      rw [scheduled] at hidle
      cases hidle
    | finished copying made bytes =>
      refine ⟨?_, .inl ⟨_, rfl, copying, by rw [made]; rfl, by rw [made]; rfl, bytes⟩⟩
      rw [made]
      change (if _ then false else old.deviceDirty) = false
      rw [hclean, ite_self]
    | written written rewritten => exact absurd written htouches
  · have hafter : engine.after (.loadBlocking buffer) = engine := (loadBlocking_of_clean hclean).2
    rw [hafter] at hnew ⊢
    rw [array_of_lookup hnew] at hclean
    exact ⟨new, hnew, hclean, .inr ⟨rfl, rfl, id⟩⟩

/-- An array that is there after such a primitive was there before. -/
theorem exists_lookup_of_sparesContent {primitive : Primitive} (hreachable : engine.Reachable)
    (hle : buffer ≤ engine.device.buffers.size) (h : primitive.SparesContent buffer)
    (hnew : (engine.after primitive).arrays.lookup buffer = some new) :
    ∃ old, engine.arrays.lookup buffer = some old := by
  obtain ⟨hinterleaves | rfl, -⟩ := h
  · obtain ⟨old, hold, -⟩ :=
      turn_of_after hreachable.fitting hreachable.faithfulCaches hle hinterleaves hnew
    exact ⟨old, hold⟩
  · change (stateAfter (Action.loadBlocking buffer) engine).arrays.lookup buffer = _ at hnew
    rcases loadBlocking_cases engine buffer with ⟨-, -, h⟩ | ⟨-, -, -, h⟩ | ⟨hdirty, -⟩
    · exact ⟨new, h ▸ hnew⟩
    · exact ⟨new, h ▸ hnew⟩
    · exact ⟨_, exists_lookup_of_deviceDirty hdirty⟩

/-! ### Runs -/

section Runs

variable {later : List Primitive}

theorem exists_lookup_of_afterAll (hreachable : engine.Reachable)
    (hle : buffer ≤ engine.device.buffers.size)
    (hlater : ∀ primitive ∈ later, primitive.SparesContent buffer)
    (hlast : (engine.afterAll later).arrays.lookup buffer = some new) :
    ∃ old, engine.arrays.lookup buffer = some old := by
  induction later generalizing engine with
  | nil => exact ⟨new, hlast⟩
  | cons primitive rest ih =>
    have hcount := hreachable.count_le_afterAll [primitive]
    obtain ⟨middle, hmiddle⟩ := ih (hreachable.afterAll [primitive]) (Nat.le_trans hle hcount)
      (fun later hmem ↦ hlater later (List.mem_cons_of_mem _ hmem)) hlast
    exact exists_lookup_of_sparesContent hreachable hle
      (hlater primitive List.mem_cons_self) hmiddle

/-- No news comes to the device in a run that spares the content of an array. -/
theorem deviceDirty_of_sparesContent (hreachable : engine.Reachable)
    (hle : buffer ≤ engine.device.buffers.size)
    (hclean : (engine.array buffer).deviceDirty = false)
    (hlater : ∀ primitive ∈ later, primitive.SparesContent buffer) :
    ((engine.afterAll later).array buffer).deviceDirty = false := by
  induction later generalizing engine with
  | nil => exact hclean
  | cons primitive rest ih =>
    have hcount := hreachable.count_le_afterAll [primitive]
    refine ih (hreachable.afterAll [primitive]) (Nat.le_trans hle hcount) ?_
      fun later hmem ↦ hlater later (List.mem_cons_of_mem _ hmem)
    cases hlookup : (engine.after primitive).arrays.lookup buffer with
    | none =>
      rw [Engine.array, hlookup]
      rfl
    | some new =>
      obtain ⟨_, _, hnew, -⟩ :=
        cases_of_sparesContent hreachable hle hclean (hlater primitive List.mem_cons_self) hlookup
      rw [array_of_lookup hlookup, hnew]

/-- Ends of loads that bring the bytes an array shows leave it showing them. -/
theorem shows_afterAll (hreachable : engine.Reachable)
    (hlookup : engine.arrays.lookup buffer = some old) (hshows : engine.Shows buffer bytes)
    (hlater : ∀ primitive ∈ later, primitive.SparesContent buffer)
    (hlast : (engine.afterAll later).arrays.lookup buffer = some new)
    (hends : ∀ before after readBack, later = before ++ .finishLoad buffer :: after →
      ((engine.afterAll before).array buffer).loading = .copying readBack →
        ((engine.afterAll before).device.bytesOf readBack.staging).Same bytes) :
    (engine.afterAll later).Shows buffer bytes := by
  induction later generalizing engine old with
  | nil => exact hshows
  | cons primitive rest ih =>
    have hle := (hreachable.fitting buffer old hlookup).le
    have hcount := hreachable.count_le_afterAll [primitive]
    have hrest : ∀ primitive ∈ rest, primitive.SparesContent buffer :=
      fun later hmem ↦ hlater later (List.mem_cons_of_mem _ hmem)
    have hnext : (engine.after primitive).Reachable := hreachable.afterAll [primitive]
    obtain ⟨middle, hmiddle⟩ :=
      exists_lookup_of_afterAll hnext (Nat.le_trans hle hcount) hrest hlast
    refine ih hnext hmiddle ?_ hrest hlast fun before after readBack hsplit hcopying ↦
      hends (primitive :: before) after readBack (by rw [hsplit, List.cons_append]) hcopying
    obtain ⟨found, hfound, hclean, hcases⟩ := cases_of_sparesContent hreachable hle hshows.clean
      (hlater primitive List.mem_cons_self) hmiddle
    obtain rfl := Option.some.inj (hlookup.symm.trans hfound)
    have hhost := hshows.host.storage
    have hcontent := hshows.content
    rw [content_of_lookup hlookup] at hcontent
    rw [array_of_lookup hlookup] at hhost
    rcases hcases with ⟨readBack, rfl, hcopying, hstorage, hdirty, hbytes⟩ |
      ⟨hstorage, hsame, -⟩
    · have hbrought : middle.storage.Same bytes := by
        rw [hstorage]
        exact hends [] rest readBack rfl (by rw [afterAll_nil, array_of_lookup hlookup, hcopying])
      refine ⟨by rw [array_of_lookup hmiddle, hclean],
        reflects_of_same (by rw [array_of_lookup hmiddle]; exact hbrought), ?_⟩
      rw [content_of_lookup hmiddle, hdirty, hbytes]
      split
      · exact hbrought
      · next hsent => rwa [if_neg hsent] at hcontent
    · refine ⟨by rw [array_of_lookup hmiddle, hclean], reflects_of_same ?_, ?_⟩
      · rw [array_of_lookup hmiddle, hstorage]
        exact hhost
      · rw [hsame]
        exact hshows.content

/-- Once no load is under way, the host copy stays as it is. -/
theorem storage_afterAll_of_idle (hreachable : engine.Reachable)
    (hlookup : engine.arrays.lookup buffer = some old) (hclean : old.deviceDirty = false)
    (hidle : old.loading = .idle) (hlater : ∀ primitive ∈ later, primitive.SparesContent buffer)
    (hlast : (engine.afterAll later).arrays.lookup buffer = some new) :
    new.storage = old.storage := by
  induction later generalizing engine old with
  | nil => rw [Option.some.inj (hlookup.symm.trans hlast)]
  | cons primitive rest ih =>
    have hle := (hreachable.fitting buffer old hlookup).le
    have hcount := hreachable.count_le_afterAll [primitive]
    have hrest : ∀ primitive ∈ rest, primitive.SparesContent buffer :=
      fun later hmem ↦ hlater later (List.mem_cons_of_mem _ hmem)
    have hnext : (engine.after primitive).Reachable := hreachable.afterAll [primitive]
    obtain ⟨middle, hmiddle⟩ :=
      exists_lookup_of_afterAll hnext (Nat.le_trans hle hcount) hrest hlast
    obtain ⟨found, hfound, hclean', hcases⟩ := cases_of_sparesContent hreachable hle
      (by rw [array_of_lookup hlookup, hclean]) (hlater primitive List.mem_cons_self) hmiddle
    obtain rfl := Option.some.inj (hlookup.symm.trans hfound)
    rcases hcases with ⟨readBack, rfl, hcopying, -⟩ | ⟨hstorage, -, hloading⟩
    · rw [hidle] at hcopying
      cases hcopying
    · exact (ih hnext hmiddle hclean' (hloading hidle) hrest hlast).trans hstorage

end Runs

/-! ### Stored values -/

/-- A store that succeeds leaves the updated array, with news on the host and none on the device. -/
theorem exists_stored {store : Primitive} {update : ArrayState → Except Failure ArrayState}
    (hstore : store.stored? = some (buffer, update))
    (hset : outcomeOf store.action engine = .ok ⟨⟩) :
    ∃ stored, update ((stateAfter (Action.loadBlocking buffer) engine).array buffer) = .ok stored ∧
      engine.after store =
        (stateAfter (Action.loadBlocking buffer) engine).setArray buffer stored ∧
      stored.hostDirty = true ∧ stored.deviceDirty = false := by
  have haction : store.action = loadThenUpdate buffer update ∧
      ∀ array : ArrayState, array.StoresBy update := by
    cases store with
    | setValue target value index =>
      cases hstore
      exact ⟨rfl, fun array ↦ array.storesBy_setValue index value⟩
    | setElements target values =>
      cases hstore
      exact ⟨rfl, fun array ↦ array.storesBy_setAll values⟩
    | _ => cases hstore
  obtain ⟨haction, hstores⟩ := haction
  obtain ⟨hstate, houtcome⟩ := loadThenUpdate_run engine buffer update
  rw [haction, houtcome, outcomeOf_bind_eq_ok] at hset
  obtain ⟨done, hloaded, hupdate⟩ := hset
  rcases updateArray_cases (stateAfter (Action.loadBlocking buffer) engine) buffer update with
    ⟨failure, -, herror, -⟩ | ⟨stored, hstored, -, hafter⟩
  · rw [herror] at hupdate
    cases hupdate
  · obtain ⟨storage, -, hmade⟩ := (hstores _).eq_ok hstored
    refine ⟨stored, hstored, ?_, by rw [hmade], ?_⟩
    · rw [after, haction, hstate, stateAfter_bind_of_ok hloaded, hafter]
    · rw [hmade]
      exact deviceDirty_of_loadBlocking hloaded

/-- Stored values are what the array shows after any run that does not write it, if and only if
every load of the array that ends in the run has staged the same bytes. -/
theorem shows_stored_iff (hreachable : engine.Reachable) {store : Primitive}
    {update : ArrayState → Except Failure ArrayState}
    (hlookup : engine.arrays.lookup buffer = some old)
    (hstore : store.stored? = some (buffer, update))
    (hset : outcomeOf store.action engine = .ok ⟨⟩) {later : List Primitive}
    (hlater : ∀ primitive ∈ later, primitive.SparesContent buffer)
    (hlast : ((engine.after store).afterAll later).arrays.lookup buffer = some new) :
    ∃ stored, update ((stateAfter (Action.loadBlocking buffer) engine).array buffer) = .ok stored ∧
      (((engine.after store).afterAll later).Shows buffer stored.storage ↔
        ∀ before after readBack, later = before ++ .finishLoad buffer :: after →
          (((engine.after store).afterAll before).array buffer).loading = .copying readBack →
            (((engine.after store).afterAll before).device.bytesOf readBack.staging).Same
              stored.storage) := by
  obtain ⟨stored, hstored, hafter, hdirty, hclean⟩ := exists_stored hstore hset
  obtain ⟨loaded, hloaded⟩ := exists_lookup_of_loadBlocking hlookup
  have hfound : (engine.after store).arrays.lookup buffer = some stored := by
    rw [hafter]
    exact lookup_setArray_self stored hloaded
  have hstart : (engine.after store).Reachable := hreachable.afterAll [store]
  refine ⟨stored, hstored, fun hshows before after readBack hsplit hcopying ↦ ?_, fun hends ↦ ?_⟩
  · set ending := (engine.after store).afterAll before with hending
    have hreached : ending.Reachable := hstart.afterAll before
    have hunderWay := exists_lookup_of_loading (by rw [hcopying]; nofun)
    have hmemory := (memory_finishLoad hunderWay hcopying).2
    have hended : (ending.after (.finishLoad buffer)).arrays.lookup buffer = some _ :=
      ((memory_eq_iff.mp hmemory).1 buffer).trans (lookup_setArray_self _ hunderWay)
    have hnews : (ending.array buffer).deviceDirty = false :=
      deviceDirty_of_sparesContent hstart (hstart.fitting buffer _ hfound).le
        (by rw [array_of_lookup hfound, hclean])
        fun primitive hmem ↦ hlater primitive (by rw [hsplit]; exact List.mem_append_left _ hmem)
    have hrest : (engine.after store).afterAll later =
        (ending.after (.finishLoad buffer)).afterAll after := by
      rw [hsplit, afterAll_append, afterAll_cons]
    rw [hrest] at hlast
    have hstorage := storage_afterAll_of_idle (hreached.afterAll [.finishLoad buffer]) hended
      (by simp only [ArrayState.readBack, hnews, ite_self]) rfl
      (fun primitive hmem ↦ hlater primitive (by
        rw [hsplit]
        exact List.mem_append_right _ (List.mem_cons_of_mem _ hmem))) hlast
    have hhost := hshows.host.storage
    rw [hrest, array_of_lookup hlast, hstorage] at hhost
    exact hhost
  · refine shows_afterAll hstart hfound ⟨?_, reflects_of_same ?_, ?_⟩ hlater hlast hends
    · rw [array_of_lookup hfound, hclean]
    · rw [array_of_lookup hfound]
      exact .refl _
    · rw [content_of_lookup hfound, if_pos hdirty]
      exact .refl _

/-- An array whose load is under way, its copy being made already. -/
def loadingEngine : Engine :=
  (Engine.create (.create [] ⟨256, 256, 65535⟩ none)
    ⟨.highPerformance, .bool true, 256, .none⟩).afterAll
      [.allocate .i32 [2] [1] false 2, .markDeviceDirty 1, .requestLoad 1, .startLoad 1]

theorem reachable_loadingEngine : loadingEngine.Reachable :=
  ⟨_, _, _, _, _, _, fun _ _ ↦ trivial, rfl⟩

/-- Whether the array still shows the sevens that were stored and sent
while it was being loaded, once the load has ended. -/
theorem shows_stored_iff_loading :
    ∃ stored, ArrayState.setValue ((stateAfter (Action.loadBlocking 1) loadingEngine).array 1) []
        (.int 7) = .ok stored ∧
      (((loadingEngine.after (.setValue 1 (.int 7) [])).afterAll [.send 1, .finishLoad 1]).Shows 1
          stored.storage ↔
        ∀ before after readBack, [.send 1, .finishLoad 1] = before ++ .finishLoad 1 :: after →
          (((loadingEngine.after (.setValue 1 (.int 7) [])).afterAll before).array 1).loading =
              .copying readBack →
            (((loadingEngine.after (.setValue 1 (.int 7) [])).afterAll before).device.bytesOf
              readBack.staging).Same stored.storage) := by
  have hset : outcomeOf (Primitive.setValue 1 (.int 7) []).action loadingEngine = .ok ⟨⟩ :=
    eq_ok_iff.mpr (by decide +kernel)
  have hlater : ∀ primitive ∈ [Primitive.send 1, .finishLoad 1], primitive.SparesContent 1 := by
    intro primitive hmem
    simp only [List.mem_cons, List.not_mem_nil, or_false] at hmem
    rcases hmem with rfl | rfl <;> exact ⟨.inl trivial, id⟩
  obtain ⟨old, hold⟩ := Option.isSome_iff_exists.mp
    (show (loadingEngine.arrays.lookup 1).isSome = true by decide +kernel)
  obtain ⟨new, hnew⟩ := Option.isSome_iff_exists.mp
    (show (((loadingEngine.after (.setValue 1 (.int 7) [])).afterAll
      [.send 1, .finishLoad 1]).arrays.lookup 1).isSome = true by decide +kernel)
  exact @shows_stored_iff loadingEngine 1 old new reachable_loadingEngine (.setValue 1 (.int 7) [])
    (·.setValue [] (.int 7)) hold rfl hset _ hlater hnew

/-- Sevens that are stored while the load is under way are what is read until the load ends, and
zeros afterwards, though nothing has written the array. -/
theorem stored_values_lost :
    loadingEngine.Reachable ∧
      outcomeOf (Action.setValue 1 (.int 7) []) loadingEngine = .ok ⟨⟩ ∧
      outcomeOf (Action.readElements 1) (loadingEngine.after (.setValue 1 (.int 7) [])) =
        .ok [7, 7] ∧
      (Primitive.finishLoad 1).SparesContent 1 ∧
      outcomeOf (Action.readElements 1)
        ((loadingEngine.after (.setValue 1 (.int 7) [])).after (.finishLoad 1)) = .ok [0, 0] :=
  ⟨reachable_loadingEngine, eq_ok_iff.mpr (by decide +kernel), eq_ok_iff.mpr (by decide +kernel),
    ⟨.inl trivial, id⟩, eq_ok_iff.mpr (by decide +kernel)⟩

end ComputeArray
