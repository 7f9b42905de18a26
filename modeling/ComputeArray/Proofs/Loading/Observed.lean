import ComputeArray.Proofs.Loading.Turn
import ComputeArray.Proofs.Run.Reachable

/-!
# What loads observe

Loads of an array, submissions and other work interleave. When a load that was called in some state
returns, the host copy holds what the array held then or later (`observes_or_overtaken`), with one
exception: a load that joins one under way gets the bytes staged for that one, though a kernel may
have written the array between the copy and the call. The version of the array tells.
-/

set_option autoImplicit false

namespace ComputeArray

open Engine

variable {engine start : Engine} {buffer : Nat} {old new : ArrayState}

namespace Engine

/-- A run of primitives that interleave with the loads of an array. All
that they reach are arrays. -/
def Interleaving (buffer : Nat) : Engine → List Primitive → Prop
  | _, [] => True
  | engine, primitive :: rest =>
    primitive.Interleaves buffer ∧
      (∀ other, primitive.Reaches other → ∃ array, engine.arrays.lookup other = some array) ∧
        Interleaving buffer (engine.after primitive) rest

/-- The copies of an array with loads under way: loading is for news, and what has been staged for a
version is what the device buffer holds as long as the array has that version. -/
structure Timely (engine : Engine) (buffer : Nat) (array : ArrayState) : Prop where
  agreeing : array.hostDirty = false → array.deviceDirty = false →
    array.storage.Same (engine.device.bytesOf buffer)
  news : array.loading ≠ .idle → array.deviceDirty = true
  version : ∀ readBack, array.loading = .copying readBack → readBack.version ≤ array.version
  plain : ∀ readBack, array.loading = .copying readBack →
    engine.arrays.lookup readBack.staging = none
  staged : ∀ readBack, array.loading = .copying readBack → readBack.version = array.version →
    (engine.device.bytesOf readBack.staging).Same (engine.device.bytesOf buffer)

end Engine

theorem ArrayState.CoherentOn.timely {array : ArrayState}
    (h : array.CoherentOn engine.device buffer) : engine.Timely buffer array where
  agreeing := h.agreeing
  news hloading := absurd h.idle hloading
  version readBack hcopying := by rw [h.idle] at hcopying; cases hcopying
  plain readBack hcopying := by rw [h.idle] at hcopying; cases hcopying
  staged readBack hcopying := by rw [h.idle] at hcopying; cases hcopying

/-- A buffer without an array stays as it is when only arrays are reached. -/
theorem plain_of_after {primitive : Primitive} {staging : Nat} (hreachable : engine.Reachable)
    (harrays : ∀ other, primitive.Reaches other → ∃ array, engine.arrays.lookup other = some array)
    (hle : staging ≤ engine.device.buffers.size) (hnone : engine.arrays.lookup staging = none) :
    (engine.after primitive).arrays.lookup staging = none ∧
      (engine.after primitive).device.bytesOf staging = engine.device.bytesOf staging := by
  have hspared : Spared engine (engine.after primitive) staging := by
    refine (confined_after primitive hreachable.faithfulCaches hreachable.fitting).2.2
      staging hle ?_
    intro hreaches
    obtain ⟨array, harray⟩ := harrays staging hreaches
    rw [hnone] at harray
    cases harray
  refine ⟨?_, hspared.plain hnone⟩
  rw [Option.eq_none_iff_forall_ne_some]
  intro array harray
  obtain ⟨old, hold, -⟩ := hspared.array array harray
  rw [hnone] at hold
  cases hold

/-- An array whose device buffer has news is not newer on the host. -/
theorem content_of_deviceDirty (hreachable : engine.Reachable)
    (hlookup : engine.arrays.lookup buffer = some old) (hdirty : old.deviceDirty = true) :
    engine.content buffer = engine.device.bytesOf buffer := by
  have hhost : old.hostDirty = false := by
    cases hhost : old.hostDirty with
    | false => rfl
    | true => exact absurd ⟨hhost, hdirty⟩ (hreachable.fitting buffer old hlookup).exclusive
  rw [content_of_lookup hlookup, hhost]
  rfl

/-! ### Steps -/

/-- What is left alone stays timely, if the buffers that reads back are staged in are left alone
too. -/
theorem timely_of_untroubled {after : Engine} (hreachable : engine.Reachable)
    (hnext : after.Reachable) (hold : engine.arrays.lookup buffer = some old)
    (hnew : after.arrays.lookup buffer = some new)
    (huntroubled : Untroubled engine after buffer old new)
    (hplain : ∀ readBack, old.loading = .copying readBack →
      after.arrays.lookup readBack.staging = none ∧
        after.device.bytesOf readBack.staging = engine.device.bytesOf readBack.staging)
    (h : engine.Timely buffer old) : after.Timely buffer new := by
  have hcontent := huntroubled.content
  constructor
  case agreeing =>
    intro hhost hclean
    rw [content_of_lookup hnew, content_of_lookup hold, hhost] at hcontent
    rw [huntroubled.deviceDirty] at hclean
    simp only [Bool.false_eq_true, if_false] at hcontent
    rw [hcontent, huntroubled.storage]
    split
    · exact .refl _
    · next hsent => exact h.agreeing (Bool.eq_false_iff.mpr hsent) hclean
  case news =>
    rw [huntroubled.loading, huntroubled.deviceDirty]
    exact h.news
  case version =>
    rw [huntroubled.loading, huntroubled.version]
    exact h.version
  case plain =>
    intro readBack hcopying
    rw [huntroubled.loading] at hcopying
    exact (hplain readBack hcopying).1
  case staged =>
    intro readBack hcopying hversion
    rw [huntroubled.loading] at hcopying
    rw [huntroubled.version] at hversion
    have hnews := h.news (by rw [hcopying]; nofun)
    rw [content_of_deviceDirty hreachable hold hnews,
      content_of_deviceDirty hnext hnew (huntroubled.deviceDirty.trans hnews)] at hcontent
    rw [(hplain readBack hcopying).2, hcontent]
    exact h.staged readBack hcopying hversion

theorem timely_of_turn {primitive : Primitive} (hreachable : engine.Reachable)
    (harrays : ∀ other, primitive.Reaches other → ∃ array, engine.arrays.lookup other = some array)
    (hold : engine.arrays.lookup buffer = some old)
    (hnew : (engine.after primitive).arrays.lookup buffer = some new)
    (hturn : Turn engine buffer old new primitive) (h : engine.Timely buffer old) :
    (engine.after primitive).Timely buffer new := by
  have hplain (readBack : ReadBack) (hcopying : old.loading = .copying readBack) :=
    plain_of_after hreachable harrays
      ((hreachable.fitting buffer old hold).staging readBack hcopying).1 (h.plain readBack hcopying)
  cases hturn with
  | spared untroubled =>
    exact timely_of_untroubled hreachable (hreachable.afterAll [primitive]) hold hnew untroubled
      hplain h
  | requested idle news made bytes =>
    subst made
    exact ⟨fun _ hclean ↦ (by cases news.symm.trans hclean), fun _ ↦ news, nofun, nofun, nofun⟩
  | abandoned scheduled made bytes =>
    have hnews := h.news (by rw [scheduled]; nofun)
    subst made
    exact ⟨fun _ hclean ↦ (by cases hnews.symm.trans hclean), fun _ ↦ hnews, nofun, nofun, nofun⟩
  | started scheduled made version plain staged bytes =>
    have hnews := h.news (by rw [scheduled]; nofun)
    subst made
    refine ⟨fun _ hclean ↦ (by cases hnews.symm.trans hclean), fun _ ↦ hnews,
      fun readBack hcopying ↦ ?_, fun readBack hcopying ↦ ?_, fun readBack hcopying _ ↦ ?_⟩
    · cases hcopying
      exact Nat.le_of_eq version
    · cases hcopying
      exact plain
    · cases hcopying
      rw [bytes]
      exact staged
  | finished copying made bytes =>
    have hnews := h.news (by rw [copying]; nofun)
    subst made
    refine ⟨fun _ hclean ↦ ?_, fun hloading ↦ absurd rfl hloading, nofun, nofun, nofun⟩
    change (if _ then false else old.deviceDirty) = false at hclean
    rw [hnews] at hclean
    split at hclean
    · next hversion =>
      rw [bytes]
      exact h.staged _ copying hversion.symm
    · cases hclean
  | written written rewritten =>
    refine ⟨fun _ hclean ↦ ?_, fun _ ↦ rewritten.deviceDirty, fun readBack hcopying ↦ ?_,
      fun readBack hcopying ↦ ?_, fun readBack hcopying hversion ↦ ?_⟩
    · rw [rewritten.deviceDirty] at hclean
      cases hclean
    · rw [rewritten.loading] at hcopying
      exact Nat.le_trans (h.version readBack hcopying) (Nat.le_of_lt rewritten.version)
    · rw [rewritten.loading] at hcopying
      exact (hplain readBack hcopying).1
    · rw [rewritten.loading] at hcopying
      have hle := h.version readBack hcopying
      have hlt := rewritten.version
      omega

/-! ### Runs -/

theorem interleaving_append {first second : List Primitive} :
    Interleaving buffer engine (first ++ second) ↔
      Interleaving buffer engine first ∧ Interleaving buffer (engine.afterAll first) second := by
  induction first generalizing engine with
  | nil => exact (and_iff_right trivial).symm
  | cons primitive rest ih =>
    simp only [List.cons_append, Interleaving, ih, afterAll_cons, and_assoc]

section Runs

variable {run : List Primitive}

theorem timely_afterAll (hreachable : engine.Reachable)
    (hle : buffer ≤ engine.device.buffers.size) (hrun : Interleaving buffer engine run)
    (h : ∀ array, engine.arrays.lookup buffer = some array → engine.Timely buffer array) :
    ∀ array, (engine.afterAll run).arrays.lookup buffer = some array →
      (engine.afterAll run).Timely buffer array := by
  induction run generalizing engine with
  | nil => exact h
  | cons primitive rest ih =>
    obtain ⟨hinterleaves, harrays, hrest⟩ := hrun
    have hcount := hreachable.count_le_afterAll [primitive]
    refine ih (hreachable.afterAll [primitive]) (Nat.le_trans hle hcount) hrest fun new hnew ↦ ?_
    obtain ⟨old, hold, hturn⟩ :=
      turn_of_after hreachable.fitting hreachable.faithfulCaches hle hinterleaves hnew
    exact timely_of_turn hreachable harrays hold hnew hturn (h old hold)

/-- Bytes that have been staged stay staged until their load ends: what is known of those staged at
the start of a run, and of all that may be staged in it, is known of those staged at its end. -/
theorem staged_afterAll {Known : ReadBack → Bytes → Prop} (hreachable : engine.Reachable)
    (hle : buffer ≤ engine.device.buffers.size) (hrun : Interleaving buffer engine run)
    (htimely : ∀ array, engine.arrays.lookup buffer = some array → engine.Timely buffer array)
    (hstart : ∀ readBack, (engine.array buffer).loading = .copying readBack →
      Known readBack (engine.device.bytesOf readBack.staging))
    (hstaged : ∀ since rest, run = since ++ rest → ∀ readBack (bytes : Bytes),
      bytes.Same ((engine.afterAll since).content buffer) → Known readBack bytes) :
    ∀ readBack, ((engine.afterAll run).array buffer).loading = .copying readBack →
      Known readBack ((engine.afterAll run).device.bytesOf readBack.staging) := by
  induction run generalizing engine with
  | nil => exact hstart
  | cons primitive rest ih =>
    obtain ⟨hinterleaves, harrays, hrest⟩ := hrun
    have hcount := hreachable.count_le_afterAll [primitive]
    refine ih (hreachable.afterAll [primitive]) (Nat.le_trans hle hcount) hrest (fun new hnew ↦ ?_)
      (fun readBack hcopying ↦ ?_) fun since later hsplit ↦
        hstaged (primitive :: since) later (by rw [hsplit, List.cons_append])
    · obtain ⟨old, hold, hturn⟩ :=
        turn_of_after hreachable.fitting hreachable.faithfulCaches hle hinterleaves hnew
      exact timely_of_turn hreachable harrays hold hnew hturn (htimely old hold)
    · have hnew := exists_lookup_of_loading (by rw [hcopying]; nofun)
      obtain ⟨old, hold, hturn⟩ :=
        turn_of_after hreachable.fitting hreachable.faithfulCaches hle hinterleaves hnew
      have hkept (hloading : old.loading = .copying readBack) :
          Known readBack ((engine.after primitive).device.bytesOf readBack.staging) := by
        have hplain := plain_of_after hreachable harrays
          ((hreachable.fitting buffer old hold).staging readBack hloading).1
          ((htimely old hold).plain readBack hloading)
        rw [hplain.2]
        exact hstart readBack (by rw [array_of_lookup hold, hloading])
      cases hturn with
      | spared untroubled => exact hkept (untroubled.loading.symm.trans hcopying)
      | requested idle news made bytes =>
        rw [made] at hcopying
        cases hcopying
      | abandoned scheduled made bytes =>
        rw [made] at hcopying
        cases hcopying
      | started scheduled made version plain staged bytes =>
        rw [made] at hcopying
        cases hcopying
        refine hstaged [] _ rfl readBack _ ?_
        have hnews := (htimely old hold).news (by rw [scheduled]; nofun)
        rw [afterAll_nil, content_of_deviceDirty hreachable hold hnews]
        exact staged
      | finished copying made bytes =>
        rw [made] at hcopying
        cases hcopying
      | written written rewritten => exact hkept (rewritten.loading.symm.trans hcopying)

end Runs

/-- Let a load be called in a run from a state where the copies of the array agree. If it returns at
once, or when a read-back ends later, the host copy reflects what the array has held at the call or
since, except that a load which joins a read-back that a kernel has overtaken, as their versions
tell, gets what had been staged when it was called. -/
theorem observes_or_overtaken (hreachable : start.Reachable)
    (hlookup : start.arrays.lookup buffer = some old)
    (hcoherent : old.CoherentOn start.device buffer) {before during : List Primitive}
    (hrun : Interleaving buffer start (before ++ .requestLoad buffer :: during))
    {called : Engine} (hcalled : called = start.afterAll (before ++ [.requestLoad buffer])) :
    (∀ array, called.arrays.lookup buffer = some array → array.deviceDirty = false →
      array.loading = .idle ∧ called.Reflects buffer (called.content buffer)) ∧
    ∀ readBack, ((called.afterAll during).array buffer).loading = .copying readBack →
      (∃ since rest, during = since ++ rest ∧
        ((called.afterAll during).after (.finishLoad buffer)).Reflects buffer
          ((called.afterAll since).content buffer)) ∨
      ((called.array buffer).loading = .copying readBack ∧
        readBack.version < (called.array buffer).version ∧
        ((called.afterAll during).after (.finishLoad buffer)).Reflects buffer
          (called.device.bytesOf readBack.staging)) := by
  have hsplit : before ++ .requestLoad buffer :: during =
      (before ++ [.requestLoad buffer]) ++ during := by
    rw [List.append_assoc, List.singleton_append]
  rw [hsplit, interleaving_append, ← hcalled] at hrun
  obtain ⟨hbefore, hduring⟩ := hrun
  have hle := (hreachable.fitting buffer old hlookup).le
  have htimely : ∀ array, called.arrays.lookup buffer = some array →
      called.Timely buffer array := by
    rw [hcalled]
    refine timely_afterAll hreachable hle hbefore fun array harray ↦ ?_
    obtain rfl := Option.some.inj (hlookup.symm.trans harray)
    exact hcoherent.timely
  have hreached : called.Reachable := hcalled ▸ hreachable.afterAll _
  refine ⟨fun array harray hclean ↦ ⟨?_, reflects_of_same ?_⟩, fun readBack hcopying ↦ ?_⟩
  · by_contra hloading
    rw [(htimely array harray).news hloading] at hclean
    cases hclean
  · rw [array_of_lookup harray, content_of_lookup harray]
    split
    · exact .refl _
    · next hsent => exact (htimely array harray).agreeing (Bool.eq_false_iff.mpr hsent) hclean
  · have hwaiting := exists_lookup_of_loading (by rw [hcopying]; nofun)
    have hmemory := (memory_finishLoad hwaiting hcopying).2
    have hstorage : (((called.afterAll during).after (.finishLoad buffer)).array buffer).storage =
        (called.afterAll during).device.bytesOf readBack.staging := by
      have hended : ((called.afterAll during).after (.finishLoad buffer)).arrays.lookup buffer =
          some _ := ((memory_eq_iff.mp hmemory).1 buffer).trans (lookup_setArray_self _ hwaiting)
      rw [array_of_lookup hended]
      rfl
    have hcount : buffer ≤ called.device.buffers.size :=
      hcalled ▸ Nat.le_trans hle (hreachable.count_le_afterAll _)
    have hknown := @staged_afterAll called buffer during
      (fun readBack bytes ↦ (∃ since rest, during = since ++ rest ∧
          bytes.Same ((called.afterAll since).content buffer)) ∨
        ((called.array buffer).loading = .copying readBack ∧
          readBack.version < (called.array buffer).version ∧
            bytes = called.device.bytesOf readBack.staging))
      hreached hcount hduring htimely (fun readBack hcopying ↦ ?_)
      (fun since rest hsince _ _ hsame ↦ .inl ⟨since, rest, hsince, hsame⟩) readBack hcopying
    · rcases hknown with ⟨since, rest, hsince, hsame⟩ | ⟨hloading, hversion, hbytes⟩
      · exact .inl ⟨since, rest, hsince, reflects_of_same (by rw [hstorage]; exact hsame)⟩
      · refine .inr ⟨hloading, hversion, reflects_of_same ?_⟩
        rw [hstorage, hbytes]
        exact .refl _
    · have hfound := exists_lookup_of_loading (by rw [hcopying]; nofun)
      have hload := htimely _ hfound
      rcases Nat.lt_or_eq_of_le (hload.version readBack hcopying) with hversion | hversion
      · exact .inr ⟨hcopying, hversion, rfl⟩
      · refine .inl ⟨[], during, rfl, ?_⟩
        have hnews := hload.news (by rw [hcopying]; nofun)
        rw [afterAll_nil, content_of_deviceDirty hreached hfound hnews]
        exact hload.staged readBack hcopying hversion

/-- A pass into the first array. -/
def countingPass : Dispatch := ⟨"", [(.array 1, .write)], 1, []⟩

/-- An array on a device whose passes leave their number in the array. -/
def countingEngine : Engine :=
  (Engine.create
    (.createWith (fun n _ held ↦ held.map fun _ ↦ .ofArray #[n.toUInt8 + 1, 0, 0, 0]) []
      ⟨256, 256, 65535⟩ none) ⟨.highPerformance, .bool true, 256, .none⟩).after
      (.allocate .i32 [1] [1] false 1)

/-- A load stages what the first pass leaves, and then a second pass runs. -/
def overtakingRun : List Primitive :=
  [.submit [countingPass] [] [], .requestLoad 1, .startLoad 1, .submit [countingPass] [] []]

theorem reachable_countingEngine : countingEngine.Reachable :=
  ⟨_, _, _, _, _, [.allocate .i32 [1] [1] false 1], fun _ _ ↦ trivial, rfl⟩

theorem interleaving_overtakingRun :
    Interleaving 1 countingEngine (overtakingRun ++ [.requestLoad 1]) := by
  have hplain : ∀ dispatch ∈ [countingPass], dispatch.ReadsPlain := by
    intro dispatch hmem buffer mode hbinding
    obtain rfl := List.mem_singleton.mp hmem
    simp [countingPass] at hbinding
  have hreaches {other : Nat} (h : Primitive.Reaches (.submit [countingPass] [] []) other) :
      other = 1 := List.mem_singleton.mp (h.resolve_right (not_not.mpr hplain))
  refine ⟨hplain, fun other h ↦ ?_, trivial, fun other h ↦ ?_, trivial, fun other h ↦ ?_, hplain,
    fun other h ↦ ?_, trivial, fun other h ↦ ?_, trivial⟩
  · obtain rfl := hreaches h
    exact Option.isSome_iff_exists.mp (by decide +kernel)
  · obtain rfl : other = 1 := h
    exact Option.isSome_iff_exists.mp (by decide +kernel)
  · obtain rfl : other = 1 := h
    exact Option.isSome_iff_exists.mp (by decide +kernel)
  · obtain rfl := hreaches h
    exact Option.isSome_iff_exists.mp (by decide +kernel)
  · obtain rfl : other = 1 := h
    exact Option.isSome_iff_exists.mp (by decide +kernel)

/-- A load has been called after the second pass. -/
def joinedEngine : Engine := countingEngine.afterAll (overtakingRun ++ [.requestLoad 1])

/-- When the load that was called after the second pass returns, it has joined the one before. -/
theorem observes_or_overtaken_joined :
    (∀ array, joinedEngine.arrays.lookup 1 = some array → array.deviceDirty = false →
      array.loading = .idle ∧ joinedEngine.Reflects 1 (joinedEngine.content 1)) ∧
    ∀ readBack, ((joinedEngine.afterAll []).array 1).loading = .copying readBack →
      (∃ since rest, [] = since ++ rest ∧
        ((joinedEngine.afterAll []).after (.finishLoad 1)).Reflects 1
          ((joinedEngine.afterAll since).content 1)) ∨
      ((joinedEngine.array 1).loading = .copying readBack ∧
        readBack.version < (joinedEngine.array 1).version ∧
        ((joinedEngine.afterAll []).after (.finishLoad 1)).Reflects 1
          (joinedEngine.device.bytesOf readBack.staging)) := by
  have hcoherent : countingEngine.Coherent :=
    (@steady_after _ (.allocate .i32 [1] [1] false 1) trivial
      (faithfulCaches_create _ _ _ _ _) (coherent_create _ _)).1
  obtain ⟨old, hold⟩ := Option.isSome_iff_exists.mp
    (show (countingEngine.arrays.lookup 1).isSome = true by decide +kernel)
  exact observes_or_overtaken reachable_countingEngine hold (hcoherent 1 old hold)
    interleaving_overtakingRun rfl

/-- The joined load leaves what the first pass has left in the host copy, though the array has held
what the second pass left ever since the load was called. -/
theorem joined_load_is_overtaken :
    countingEngine.Reachable ∧ Interleaving 1 countingEngine (overtakingRun ++ [.requestLoad 1]) ∧
      (joinedEngine.array 1).loading.isUnderWay = true ∧
      (joinedEngine.content 1).elements 4 1 = [2] ∧
      ((joinedEngine.after (.finishLoad 1)).array 1).loading.isUnderWay = false ∧
      ((joinedEngine.after (.finishLoad 1)).content 1).elements 4 1 = [2] ∧
      ((joinedEngine.after (.finishLoad 1)).array 1).storage.elements 4 1 = [1] :=
  ⟨reachable_countingEngine, interleaving_overtakingRun, by decide +kernel, by decide +kernel,
    by decide +kernel, by decide +kernel, by decide +kernel⟩

end ComputeArray
