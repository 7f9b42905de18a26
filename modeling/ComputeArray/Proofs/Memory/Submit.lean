import ComputeArray.Proofs.Cache.Run
import ComputeArray.Proofs.Memory.Load
import ComputeArray.Proofs.Run.Compilation

/-!
# Submissions and memory

Before a submission goes out, everything its passes read has been sent: then the device buffers hold
the content of these arrays (`bytesOf_of_prepare`). What the submission may write has been marked as
newer on the device, so the copies stay coherent whatever the passes compute, and no other array
changes its content (`steady_submit`).
-/

set_option autoImplicit false

namespace ComputeArray

open Engine

variable {touched : Nat → Prop} {engine : Engine} {buffer : Nat}

namespace Engine

/-- What may happen before a submission: no content changes, and no host copy gets news. -/
structure Preparing (before after : Engine) : Prop where
  steady : Steady (fun _ ↦ False) before after
  content : before.Coherent → ∀ buffer, after.content buffer = before.content buffer
  clean : ∀ buffer, (before.array buffer).hostDirty = false →
    (after.array buffer).hostDirty = false

instance : Std.Refl Preparing := ⟨fun engine ↦ ⟨.refl engine, fun _ _ ↦ rfl, fun _ h ↦ h⟩⟩

instance : IsTrans Engine Preparing :=
  ⟨fun _ _ _ hfirst hlast ↦ ⟨hfirst.steady.trans hlast.steady,
    fun hcoherent buffer ↦ (hlast.content (hfirst.steady hcoherent).1 buffer).trans
      (hfirst.content hcoherent buffer),
    fun buffer h ↦ hlast.clean buffer (hfirst.clean buffer h)⟩⟩

theorem Preparing.of_memory_eq {first last : Engine} (h : last.memory = first.memory) :
    Preparing first last where
  steady := .of_memory_eq h
  content _ := content_eq_of_memory_eq h
  clean buffer hclean := by rw [array_eq_of_memory_eq h, hclean]

theorem Preparing.of_compiles {first last : Engine} (h : Compiles first last) :
    Preparing first last :=
  .of_memory_eq (memory_eq_iff.mpr ⟨fun _ ↦ by rw [h.arrays], h.buffers⟩)

end Engine

/-! ### Preparations -/

theorem preparing_sent (hdirty : (engine.array buffer).hostDirty = true) :
    Preparing engine (engine.sent buffer) where
  steady := steady_sent hdirty
  content hcoherent other := by
    by_cases hother : other = buffer
    · subst hother
      have hsent := lookup_sent (exists_lookup_of_hostDirty hdirty)
      have hsteady : Steady (fun _ ↦ False) engine (engine.sent other) := steady_sent hdirty
      exact ((hsteady hcoherent).2 other _ hsent id).2
    · have harray : (engine.sent buffer).array other = engine.array other :=
        array_sent_of_ne hother
      have hbytes := (Device.sameOutside_write engine.device buffer
        (engine.array buffer).storage).bytes other hother
      rw [content, content, harray]
      exact if_congr Iff.rfl rfl hbytes
  clean other hclean := by
    by_cases hother : other = buffer
    · subst hother
      rw [array_of_lookup (lookup_sent (exists_lookup_of_hostDirty hdirty))]
    · rw [array_sent_of_ne hother, hclean]

theorem preparing_send (buffer : Nat) : Moves Preparing (Action.send buffer) := by
  intro engine
  rcases send_cases engine buffer with ⟨-, -, h⟩ | ⟨-, -, h⟩ | ⟨hdirty, -, h⟩
  · rw [h]
    exact refl_of Preparing engine
  · rw [h]
    exact refl_of Preparing engine
  · rw [h]
    exact preparing_sent hdirty

theorem preparing_createEncoder : Moves Preparing (Action.changeDevice Device.createEncoder) :=
  compiles_createEncoder.mono fun _ _ ↦ .of_compiles

theorem preparing_encode (dispatch : Dispatch) : Moves Preparing (Action.encode dispatch) :=
  (compiles_encode dispatch).mono fun _ _ ↦ .of_compiles

theorem preparing_prepare (dispatches : List Dispatch) (copies : List (Nat × Nat)) :
    Moves Preparing (Action.prepare dispatches copies) :=
  .prepare preparing_send preparing_createEncoder preparing_encode _ _

/-- The arrays the passes read. -/
def readBy (dispatches : List Dispatch) : List Nat := dispatches.flatMap (·.arrays (· ≠ .write))

/-- The arrays the passes and the copies may write. -/
def writtenBy (dispatches : List Dispatch) (copies : List (Nat × Nat)) : List Nat :=
  dispatches.flatMap (·.arrays (· ≠ .read)) ++ copies.map Prod.snd

/-- Everything the passes read has been sent when the commands are ready. -/
theorem hostDirty_of_prepare {dispatches : List Dispatch} {copies : List (Nat × Nat)}
    {commands : List Command}
    (h : outcomeOf (Action.prepare dispatches copies) engine = .ok commands)
    (hread : buffer ∈ readBy dispatches) :
    ((stateAfter (Action.prepare dispatches copies) engine).array buffer).hostDirty = false := by
  unfold Action.prepare Action.beginEncoding at h ⊢
  rw [bind_assoc] at h ⊢
  obtain ⟨sent, hsent, -⟩ := outcomeOf_bind_eq_ok.mp h
  have hclean := forall_of_outcomeOf_forM (fun buffer ↦ preparing_send buffer)
    (fun buffer engine sent (hsend : outcomeOf (Action.send buffer) engine = .ok sent) ↦
      hostDirty_of_send hsend)
    (fun _ _ buffer hmove ↦ hmove.clean buffer) hsent buffer hread
  rw [stateAfter_bind, hsent]
  have hrest : Moves Preparing (do
      Action.changeDevice Device.createEncoder
      let passes ← dispatches.mapM Action.encode
      let moves ← copies.mapM Action.encodeCopy
      return passes ++ moves) :=
    .bind preparing_createEncoder fun _ ↦
      .bind (.mapM _ fun dispatch _ ↦ preparing_encode dispatch) fun _ ↦
        .bind (.mapM _ fun copy _ ↦ .encodeCopy preparing_send copy) fun _ ↦ .pure _
  exact (hrest _).clean buffer hclean

/-- When the commands are ready, the device holds the content of all arrays the passes read. -/
theorem bytesOf_of_prepare {dispatches : List Dispatch} {copies : List (Nat × Nat)}
    {commands : List Command} (hcoherent : engine.Coherent)
    (h : outcomeOf (Action.prepare dispatches copies) engine = .ok commands)
    (hread : buffer ∈ readBy dispatches) :
    (stateAfter (Action.prepare dispatches copies) engine).device.bytesOf buffer =
      engine.content buffer := by
  have hclean := hostDirty_of_prepare h hread
  have hprepared := preparing_prepare dispatches copies engine
  rw [← hprepared.content hcoherent buffer, content, hclean]
  rfl

/-! ### What commands write -/

namespace Engine

/-- The command runs a dispatch with the layout kept for its modes. -/
def Runs (engine : Engine) (dispatch : Dispatch) (command : Command) : Prop :=
  ∃ pipeline layout buffers groups, command = .dispatch pipeline layout buffers groups ∧
    engine.layouts.lookup (signatureOf dispatch.modes) = some layout ∧
    buffers.map Prod.fst = dispatch.bindings.map (fun binding ↦ binding.1.buffer)

theorem Runs.mono {before after : Engine} {dispatch : Dispatch} {command : Command}
    (hgrow : CachesGrow before after) (h : before.Runs dispatch command) :
    after.Runs dispatch command := by
  obtain ⟨pipeline, layout, buffers, groups, hcommand, hlayout, hbuffers⟩ := h
  exact ⟨pipeline, layout, buffers, groups, hcommand, hgrow.layouts _ _ hlayout, hbuffers⟩

end Engine

theorem runs_of_encode {dispatch : Dispatch} {command : Command}
    (hfaithful : engine.FaithfulCaches)
    (h : outcomeOf (Action.encode dispatch) engine = .ok command) :
    (stateAfter (Action.encode dispatch) engine).Runs dispatch command := by
  obtain ⟨pipeline, layout, buffers, groups, hcommand, -, hlayout, hbuffers, -⟩ :=
    encode_spec hfaithful h
  exact ⟨pipeline, layout, buffers, groups, hcommand, hlayout, hbuffers⟩

theorem eq_copy_of_encodeCopy {copy : Nat × Nat} {command : Command}
    (h : outcomeOf (Action.encodeCopy copy) engine = .ok command) :
    command = .copy copy.1 copy.2
      ((stateAfter (Action.encodeCopy copy) engine).device.sizeOf copy.2) := by
  simp only [Action.encodeCopy, outcomeOf_bind_eq_ok, outcomeOf_pure, Except.ok.injEq] at h
  obtain ⟨done, hsent, current, hcurrent, rfl⟩ := h
  cases hcurrent
  rw [Action.encodeCopy, stateAfter_bind_of_ok hsent]
  rfl

theorem Mode.eq_read_iff_letter (mode : Mode) : mode = .read ↔ mode.letter = 'r' := by
  cases mode <;> decide

/-- The mode and the buffer of a slot come from one binding, up to what the letters of modes
tell. -/
theorem exists_binding_of_mem_zip {modes : List Mode} {bindings : List (Resource × Mode)}
    {mode : Mode} (hletters : modes.map Mode.letter = bindings.map fun binding ↦ binding.2.letter)
    (hmem : (mode, buffer) ∈ modes.zip (bindings.map fun binding ↦ binding.1.buffer)) :
    ∃ binding ∈ bindings, binding.1.buffer = buffer ∧ binding.2.letter = mode.letter := by
  induction bindings generalizing modes with
  | nil => simp at hmem
  | cons binding rest ih =>
    cases modes with
    | nil => simp at hmem
    | cons first modes =>
      simp only [List.map_cons, List.cons.injEq] at hletters
      simp only [List.map_cons, List.zip_cons_cons, List.mem_cons, Prod.mk.injEq] at hmem
      rcases hmem with ⟨rfl, rfl⟩ | hmem
      · exact ⟨binding, by simp, rfl, hletters.1.symm⟩
      · obtain ⟨found, hfound, h⟩ := ih hletters.2 hmem
        exact ⟨found, List.mem_cons_of_mem binding hfound, h⟩

/-- A pass writes arrays that its dispatch binds for more than reading, and nothing else. -/
theorem mem_arrays_of_runs {dispatch : Dispatch} {command : Command}
    (hfaithful : engine.FaithfulCaches) (hplain : dispatch.ReadsPlain)
    (hruns : engine.Runs dispatch command) (hwrites : command.Writes engine.device buffer) :
    buffer ∈ dispatch.arrays (· ≠ .read) := by
  obtain ⟨pipeline, layout, buffers, groups, rfl, hlayout, hbuffers⟩ := hruns
  obtain ⟨modes, hentries, hsignature⟩ := hfaithful.layouts _ _ hlayout
  obtain ⟨mode, hslot, hmode⟩ := hwrites
  rw [Device.modesOf, hentries, hbuffers, Option.getD_some] at hslot
  have hletters : ((entriesOf modes).map LayoutEntry.access).map Mode.letter =
      dispatch.bindings.map fun binding ↦ binding.2.letter := by
    rw [letters_entriesOf, String.ofList_injective hsignature, Dispatch.modes, List.map_map]
    rfl
  obtain ⟨⟨resource, bound⟩, hbinding, rfl, hletter⟩ := exists_binding_of_mem_zip hletters hslot
  have hbound : bound ≠ .read := by
    rw [Ne, Mode.eq_read_iff_letter] at hmode ⊢
    rwa [hletter]
  cases resource with
  | plain buffer => exact absurd (hplain buffer bound hbinding) hbound
  | array buffer =>
    unfold Dispatch.arrays
    rw [List.mem_filterMap]
    exact ⟨_, hbinding, by simp [hbound, Resource.buffer]⟩

/-- The commands of a submission write no array that it does not mark. -/
theorem mem_writtenBy_of_prepare {dispatches : List Dispatch} {copies : List (Nat × Nat)}
    {commands : List Command} (hfaithful : engine.FaithfulCaches)
    (hplain : ∀ dispatch ∈ dispatches, dispatch.ReadsPlain)
    (h : outcomeOf (Action.prepare dispatches copies) engine = .ok commands) {command : Command}
    (hmem : command ∈ commands)
    (hwrites : command.Writes
      (stateAfter (Action.prepare dispatches copies) engine).device buffer) :
    buffer ∈ writtenBy dispatches copies := by
  obtain ⟨passes, moves, begun, middle, rfl, -, hbegun, hpasses, hmiddle, hmoves, hstate⟩ :=
    prepare_eq_ok h
  rw [hstate] at hwrites
  obtain ⟨hfaithful', -⟩ := caching_beginEncoding dispatches engine hfaithful
  rw [← hbegun] at hfaithful'
  have hencoded : (middle.FaithfulCaches ∧ CachesGrow _ middle) ∧
      List.Forall₂ middle.Runs dispatches passes := hmiddle ▸
    forall₂_persisting_of_outcomeOf_mapM caching_encode (fun _ _ _ ↦ runs_of_encode)
      (fun _ _ _ _ ↦ Runs.mono) hfaithful' hpasses
  obtain ⟨⟨hcaches, -⟩, hruns⟩ := hencoded
  obtain ⟨hlast, hgrow⟩ :=
    Moves.mapM copies (fun copy _ ↦ .encodeCopy caching_send copy) middle hcaches
  rw [writtenBy, List.mem_append]
  rcases List.mem_append.mp hmem with hpass | hmove
  · obtain ⟨dispatch, hdispatch, hrun⟩ := exists_of_forall₂ hruns hpass
    refine .inl (List.mem_flatMap.mpr ⟨dispatch, hdispatch, ?_⟩)
    exact mem_arrays_of_runs hlast (hplain dispatch hdispatch) (hrun.mono hgrow) hwrites
  · obtain ⟨copy, hcopy, start, hencode⟩ := exists_of_outcomeOf_mapM hmoves command hmove
    obtain rfl := eq_copy_of_encodeCopy hencode
    exact .inr (List.mem_map.mpr ⟨copy, hcopy, hwrites.symm⟩)

/-! ### Marking and handing over -/

namespace Engine

/-- The later array is the earlier one in a later version, with news on the device only. -/
def Marked (before after : ArrayState) : Prop :=
  ∃ version, before.version < version ∧
    after = { before with hostDirty := false, deviceDirty := true, version }

namespace Marked

variable {before middle after : ArrayState}

theorem trans (hfirst : Marked before middle) (hlast : Marked middle after) :
    Marked before after := by
  obtain ⟨earlier, hearlier, rfl⟩ := hfirst
  obtain ⟨later, hlater, rfl⟩ := hlast
  exact ⟨later, Nat.lt_trans hearlier hlater, rfl⟩

theorem hostDirty (h : Marked before after) : after.hostDirty = false := by
  obtain ⟨_, -, rfl⟩ := h
  rfl

theorem deviceDirty (h : Marked before after) : after.deviceDirty = true := by
  obtain ⟨_, -, rfl⟩ := h
  rfl

theorem storage (h : Marked before after) : after.storage = before.storage := by
  obtain ⟨_, -, rfl⟩ := h
  rfl

theorem version (h : Marked before after) : before.version < after.version := by
  obtain ⟨_, hlater, rfl⟩ := h
  exact hlater

theorem loading (h : Marked before after) : after.loading = before.loading := by
  obtain ⟨_, -, rfl⟩ := h
  rfl

theorem released (h : Marked before after) : after.released = before.released := by
  obtain ⟨_, -, rfl⟩ := h
  rfl

end Marked

/-- The listed arrays have been marked as newer on the device, and nothing else has happened. -/
structure MarkedAll (buffers : List Nat) (before after : Engine) : Prop where
  device : after.device = before.device
  others : ∀ buffer, buffer ∉ buffers → after.arrays.lookup buffer = before.arrays.lookup buffer
  marked : ∀ buffer ∈ buffers, ∀ array, after.arrays.lookup buffer = some array →
    ∃ old, before.arrays.lookup buffer = some old ∧ Marked old array

theorem markedAll_forM (buffers : List Nat) (engine : Engine) :
    MarkedAll buffers engine (stateAfter (buffers.forM Action.markDeviceDirty) engine) ∧
      outcomeOf (buffers.forM Action.markDeviceDirty) engine = .ok ⟨⟩ := by
  induction buffers generalizing engine with
  | nil => exact ⟨⟨rfl, fun _ _ ↦ rfl, fun _ h ↦ by cases h⟩, rfl⟩
  | cons buffer rest ih =>
    set next := stateAfter (Action.markDeviceDirty buffer) engine with hnext
    have hstate : stateAfter ((buffer :: rest).forM Action.markDeviceDirty) engine =
        stateAfter (rest.forM Action.markDeviceDirty) next := rfl
    have houtcome : outcomeOf ((buffer :: rest).forM Action.markDeviceDirty) engine =
        outcomeOf (rest.forM Action.markDeviceDirty) next := rfl
    have hself : ∀ array, next.arrays.lookup buffer = some array →
        ∃ old, engine.arrays.lookup buffer = some old ∧ Marked old array := by
      intro array hlookup
      change (engine.setArray buffer _).arrays.lookup buffer = some array at hlookup
      rw [lookup_setArray] at hlookup
      obtain ⟨old, hold, harray⟩ := Option.map_eq_some_iff.mp hlookup
      rw [if_pos rfl, array_of_lookup hold] at harray
      exact ⟨old, hold, _, Nat.lt_succ_self _, harray.symm⟩
    have hother : ∀ other, other ≠ buffer →
        next.arrays.lookup other = engine.arrays.lookup other :=
      fun other h ↦ lookup_setArray_of_ne _ h
    obtain ⟨hrest, hdone⟩ := ih next
    rw [hstate, houtcome]
    refine ⟨⟨hrest.device, fun other hnot ↦ ?_, fun other hmem array hlookup ↦ ?_⟩, hdone⟩
    · rw [List.mem_cons, not_or] at hnot
      rw [hrest.others other hnot.2, hother other hnot.1]
    · by_cases hlater : other ∈ rest
      · obtain ⟨middle, hmiddle, hmarked⟩ := hrest.marked other hlater array hlookup
        by_cases hsame : other = buffer
        · subst hsame
          obtain ⟨old, hold, hmarked'⟩ := hself middle hmiddle
          exact ⟨old, hold, hmarked'.trans hmarked⟩
        · rw [hother other hsame] at hmiddle
          exact ⟨middle, hmiddle, hmarked⟩
      · rw [hrest.others other hlater] at hlookup
        rcases List.mem_cons.mp hmem with rfl | hmem
        · exact hself array hlookup
        · exact absurd hmem hlater

/-- A submission that writes marked arrays only keeps the copies coherent. -/
theorem steady_submitted {buffers : List Nat} {marked : Engine} {commands : List Command}
    {last : Engine} (hmarked : MarkedAll buffers engine marked)
    (hwrites : ∀ command ∈ commands, ∀ buffer, command.Writes engine.device buffer →
      buffer ∈ buffers)
    (harrays : last.arrays = marked.arrays)
    (hdevice : last.device = marked.device.submit commands) :
    Steady (· ∈ buffers) engine last := by
  intro hcoherent
  have hsubmit := Device.sameOutside_submit commands engine.device
  rw [hmarked.device] at hdevice
  have hbytes : ∀ buffer, buffer ∉ buffers →
      last.device.bytesOf buffer = engine.device.bytesOf buffer := by
    intro buffer hnot
    rw [hdevice]
    refine hsubmit.bytes buffer ?_
    rintro ⟨command, hmem, h⟩
    exact hnot (hwrites command hmem buffer h)
  have hcount : last.device.buffers.size = engine.device.buffers.size := by
    rw [hdevice]
    exact hsubmit.count
  refine ⟨fun buffer array hlookup ↦ ?_, fun buffer array hlookup hnot ↦ ?_⟩
  · rw [harrays] at hlookup
    by_cases hin : buffer ∈ buffers
    · obtain ⟨old, hold, hnew⟩ := hmarked.marked buffer hin array hlookup
      have hcopies := hcoherent buffer old hold
      refine ⟨hcopies.pos, hcount ▸ hcopies.le, ?_, ?_, ?_, hnew.loading.trans hcopies.idle⟩
      · rw [hnew.storage, hcopies.size, hdevice, hsubmit.size]
      · rw [hnew.hostDirty]
        rintro ⟨h, -⟩
        cases h
      · rw [hnew.deviceDirty]
        intro _ h
        cases h
    · rw [hmarked.others buffer hin] at hlookup
      exact (hcoherent buffer array hlookup).of_bytesOf_eq (Nat.le_of_eq hcount.symm)
        (hbytes buffer hin)
  · have hold : engine.arrays.lookup buffer = some array := by
      rw [← hmarked.others buffer hnot, ← harrays, hlookup]
    refine ⟨⟨array, hold⟩, ?_⟩
    rw [content_of_lookup hlookup, content_of_lookup hold, hbytes buffer hnot]

end Engine

theorem handOver_eq (dispatches : List Dispatch) (copies : List (Nat × Nat))
    (commands : List Command) :
    Action.handOver dispatches copies commands = (do
      (writtenBy dispatches copies).forM Action.markDeviceDirty
      Action.submitCommands commands) := by
  rw [writtenBy, List.forM_eq_forM, List.forM_append, bind_assoc]
  rfl

/-- A submission does nothing, or only prepares itself, or it marks the arrays it writes and hands
its commands to the device. -/
theorem submit_cases (dispatches : List Dispatch) (helpers : List Nat) (copies : List (Nat × Nat))
    (engine : Engine) :
    stateAfter (Action.submit dispatches helpers copies) engine = engine ∨
    stateAfter (Action.submit dispatches helpers copies) engine =
      stateAfter (Action.prepare dispatches copies) engine ∨
    ∃ commands marked serial,
      outcomeOf (Action.prepare dispatches copies) engine = .ok commands ∧
      MarkedAll (writtenBy dispatches copies) (stateAfter (Action.prepare dispatches copies) engine)
        marked ∧
      stateAfter (Action.submit dispatches helpers copies) engine =
        stateAfter (Action.settle serial helpers)
          (stateAfter (Action.submitCommands commands) marked) := by
  simp only [Action.submit, stateAfter_bind, stateAfter_assertActive]
  cases outcomeOf Action.assertActive engine with
  | error failure => exact .inl rfl
  | ok active =>
    refine .inr ?_
    dsimp only
    cases hcommands : outcomeOf (Action.prepare dispatches copies) engine with
    | error failure => exact .inl rfl
    | ok commands =>
      refine .inr ?_
      dsimp only
      set prepared := stateAfter (Action.prepare dispatches copies) engine
      obtain ⟨hmarked, hdone⟩ := markedAll_forM (writtenBy dispatches copies) prepared
      set marked := stateAfter ((writtenBy dispatches copies).forM Action.markDeviceDirty) prepared
      have hhanded : outcomeOf (Action.handOver dispatches copies commands) prepared =
            .ok (marked.serial + 1) ∧
          stateAfter (Action.handOver dispatches copies commands) prepared =
            stateAfter (Action.submitCommands commands) marked := by
        rw [handOver_eq, outcomeOf_bind, stateAfter_bind, hdone]
        exact ⟨rfl, rfl⟩
      rw [hhanded.1, hhanded.2]
      refine ⟨commands, marked, marked.serial + 1, rfl, hmarked, ?_⟩
      dsimp only
      split <;> rfl

theorem memory_settle (serial : Nat) (helpers : List Nat) (engine : Engine) :
    (stateAfter (Action.settle serial helpers) engine).memory = engine.memory := by
  simp only [Action.settle, stateAfter_bind, outcomeOf_modify, stateAfter_modify, outcomeOf_get,
    stateAfter_get]
  split
  · simp only [stateAfter_bind, outcomeOf_changeDevice, stateAfter_changeDevice, stateAfter_modify]
    exact memory_retire _ _
  · rfl

/-- A submission keeps the copies coherent, and changes the content of no array but those its
passes and copies write. -/
theorem steady_submit {dispatches : List Dispatch} (helpers : List Nat)
    (copies : List (Nat × Nat)) (hfaithful : engine.FaithfulCaches)
    (hplain : ∀ dispatch ∈ dispatches, dispatch.ReadsPlain) :
    Steady (· ∈ writtenBy dispatches copies) engine
      (stateAfter (Action.submit dispatches helpers copies) engine) := by
  have hprepared : Steady (· ∈ writtenBy dispatches copies) engine
      (stateAfter (Action.prepare dispatches copies) engine) :=
    (preparing_prepare dispatches copies engine).steady.mono fun _ h ↦ h.elim
  rcases submit_cases dispatches helpers copies engine with
    h | h | ⟨commands, marked, serial, hcommands, hmarked, h⟩
  · rw [h]
    exact .refl engine
  · rw [h]
    exact hprepared
  · rw [h]
    have hsubmitted : Steady (· ∈ writtenBy dispatches copies)
        (stateAfter (Action.prepare dispatches copies) engine)
        (stateAfter (Action.submitCommands commands) marked) :=
      steady_submitted hmarked (fun command hmem buffer hwrites ↦
        mem_writtenBy_of_prepare hfaithful hplain hcommands hmem hwrites) rfl rfl
    exact (hprepared.trans hsubmitted).trans (.of_memory_eq (memory_settle serial helpers _))

end ComputeArray
